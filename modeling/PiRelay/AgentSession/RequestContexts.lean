import PiRelay.AgentSession.AppendedEntries

/-! Every model request a session has queued carries the context of the leaf it
names, as the store of the session shows it. -/
namespace PiRelay.Session

open AgentVocab AgentCore List

namespace AgentSession

structure Contextual (session : AgentSession) : Prop where
  rooted : session.transcriptStore.Rooted
  requests : ∀ actionId turnId context leafId,
    .requestModel actionId turnId context leafId ∈ session.actionOutbox →
      (∀ entryId ∈ leafId, entryId ∈ entryIds session.transcriptStore.nodes) ∧
        context = session.transcriptStore.contextAt leafId

namespace Contextual

variable {session : AgentSession}

section

variable (contextual : session.Contextual)
include contextual

theorem of_outbox {after : AgentSession} (hStore : after.transcriptStore = session.transcriptStore)
    (hOutbox : ∀ action ∈ after.actionOutbox,
      action ∈ session.actionOutbox ∨ ∀ actionId turnId context leafId,
        action ≠ .requestModel actionId turnId context leafId) : after.Contextual where
  rooted := hStore ▸ contextual.rooted
  requests := by
    intro actionId turnId context leafId mem
    rw [hStore]
    rcases hOutbox _ mem with old | other
    · exact contextual.requests actionId turnId context leafId old
    · exact absurd rfl (other actionId turnId context leafId)

theorem invalidateSessionWork : session.invalidateSessionWork.Contextual := by
  apply contextual.of_outbox session.invalidateSessionWork_transcriptStore
  intro action mem
  right
  rintro actionId turnId context leafId rfl
  rw [AgentSession.invalidateSessionWork, queueSessionAction] at mem
  split at mem <;> simp [SessionAction.isCancelSessionWork] at mem

theorem enqueueAccepted (input : AgentInput) : (session.enqueueAccepted input).Contextual := by
  have enqueues := session.enqueueAccepted_enqueues input
  generalize session.enqueueAccepted input = enqueued at enqueues
  cases enqueues with
  | interrupt =>
    have invalidated := contextual.invalidateSessionWork
    exact ⟨invalidated.rooted, invalidated.requests⟩
  | completion =>
    refine contextual.of_outbox ?_ ?_
    · rfl
    · intro action mem
      exact .inl (mem_of_mem_eraseP mem)
  | stale => exact contextual
  | queued => exact ⟨contextual.rooted, contextual.requests⟩

theorem appendWithEvent (item : TranscriptItem) (providerReplay : List ProviderReplayItem)
    {stamp : EntryStamp} (unused : stamp.id ∉ entryIds session.transcriptStore.nodes) :
    (session.appendWithEvent item providerReplay stamp).Contextual where
  rooted := contextual.rooted.appendItem item providerReplay unused
  requests := by
    intro actionId turnId context leafId mem
    obtain ⟨known, hContext⟩ := contextual.requests actionId turnId context leafId mem
    constructor
    · intro entryId hEntry
      rw [AgentSession.appendWithEvent, TranscriptStore.appendItem, TranscriptStore.appendEntry,
        entryIds_append]
      exact mem_append_left _ (known entryId hEntry)
    · rw [hContext]
      exact (contextual.rooted.contextAt_appendItem known item providerReplay unused).symm

theorem enqueueSessionInput (input : SessionInput) {stamps : Nat → EntryStamp}
    (fresh : Fresh stamps session.transcriptStore.nodes) :
    (session.enqueueSessionInput input stamps).Contextual := by
  cases input with
  | modelCompleted => exact contextual.enqueueAccepted _
  | modelMaxOutputTokens actionId turnId assistant providerReplay =>
    rw [AgentSession.enqueueSessionInput, acceptModelMaxOutputTokens]
    split
    · exact contextual
    · rename_i outstandingActions _
      have dropped : ({ session with outstandingActions }.dropCompletedActionFromOutbox
          (.modelCompleted actionId turnId assistant)).Contextual := by
        refine contextual.of_outbox ?_ ?_
        · rfl
        · intro action mem
          exact .inl (mem_of_mem_eraseP mem)
      have first := dropped.appendWithEvent (.assistantMessage assistant) providerReplay
        (fresh.unused 0)
      have second := first.appendWithEvent (.turnFinished turnId .crashed) []
        (fresh.shift _ (by rfl) |>.unused 0)
      exact ⟨second.rooted, second.requests⟩

theorem drainCoreAction (action : AgentAction) : (session.drainCoreAction action).Contextual := by
  cases action with
  | requestModel =>
    refine ⟨contextual.rooted, ?_⟩
    intro otherId otherTurn context leafId mem
    rcases Library.mem_concat.mp mem with old | new
    · exact contextual.requests otherId otherTurn context leafId old
    · injection new with _ _ hContext hLeaf
      subst hContext hLeaf
      exact ⟨contextual.rooted.leaf, rfl⟩
  | requestTool =>
    refine contextual.of_outbox ?_ ?_
    · rfl
    · intro action mem
      rcases Library.mem_concat.mp mem with old | rfl
      · exact .inl old
      · exact .inr (by simp)
  | cancelTurn => exact contextual.invalidateSessionWork

theorem foldl_drainCoreAction (actions : List AgentAction) :
    (actions.foldl AgentSession.drainCoreAction session).Contextual := by
  induction actions generalizing session with
  | nil => exact contextual
  | cons action _ ih => exact ih (contextual.drainCoreAction action)

/-- The requests of a drive have the context of the entries so far. -/
theorem drive {stamps : Nat → EntryStamp} (fresh : Fresh stamps session.transcriptStore.nodes) :
    (session.drive stamps).Contextual := by
  apply foldl_drainCoreAction
  refine ⟨contextual.rooted.appendTranscriptItems fresh, ?_⟩
  intro actionId turnId context leafId mem
  obtain ⟨known, hContext⟩ := contextual.requests actionId turnId context leafId mem
  constructor
  · intro entryId hEntry
    show entryId ∈ entryIds (session.transcriptStore.appendTranscriptItems _ stamps).nodes
    rw [TranscriptStore.appendTranscriptItems_nodes, entryIds_append]
    exact mem_append_left _ (known entryId hEntry)
  · rw [hContext]
    exact (contextual.rooted.contextAt_appendTranscriptItems known fresh).symm

end

end Contextual

end AgentSession

end PiRelay.Session
