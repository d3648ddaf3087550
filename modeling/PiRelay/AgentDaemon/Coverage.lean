import PiRelay.AgentDaemon.Sections
import PiRelay.AgentSession.AtRest

/-! Which requests of a live session have an unfinished action row. A request gets
its row with the batch that sends it out, and the row is finished with the batch
that takes its completion in. -/
namespace PiRelay.Runtime

open AgentVocab AgentCore Session Store List Option

/-- Every request in flight has an unfinished row once the queued actions are
recorded, or somebody owes the session its completion. -/
def Covers (owed : CompletionTarget → Prop) (rows : List ActionRow) (session : AgentSession) :
    Prop :=
  ∀ target ∈ session.outstandingActions.pending,
    Covered (session.actionOutbox.foldl Database.recordRow rows) target ∨ owed target

namespace Covers

variable {owed later : CompletionTarget → Prop} {rows changed : List ActionRow}
  {session : AgentSession} {input : AgentInput}

theorem of_pending (nothing : session.outstandingActions.pending = []) :
    Covers owed rows session := by
  intro target mem
  rw [nothing] at mem
  cases mem

section

variable (covers : Covers owed rows session)
include covers

theorem drainCoreAction (action : AgentAction) :
    Covers owed rows (session.drainCoreAction action) := by
  cases action with
  | cancelTurn => exact of_pending session.invalidateSessionWork_pending
  | requestModel | requestTool =>
    intro target mem
    rw [AgentSession.drainCoreAction, AgentSession.queueCoreAction,
      AgentSession.queueSessionAction, foldl_append]
    rcases Library.mem_concat.mp mem with old | rfl
    · exact (covers target old).imp_left fun covered => covered.append _
    · exact .inl ⟨_, mem_append_right _ (.head _), rfl, rfl⟩

theorem foldl_drainCoreAction (actions : List AgentAction) :
    Covers owed rows (actions.foldl AgentSession.drainCoreAction session) := by
  induction actions generalizing session with
  | nil => exact covers
  | cons action _ ih => exact ih (covers.drainCoreAction action)

theorem drive (stamps : Nat → EntryStamp) : Covers owed rows (session.drive stamps) := by
  apply foldl_drainCoreAction
  exact covers

theorem enqueue_plain (noReport : RecordedCompletion.fromInput input = none) :
    Covers owed rows (session.enqueueAccepted input) := by
  have enqueues := session.enqueueAccepted_enqueues input
  generalize session.enqueueAccepted input = enqueued at enqueues
  cases enqueues with
  | interrupt => exact of_pending session.invalidateSessionWork_pending
  | queued => exact covers
  | stale reports | completion reports => rw [noReport] at reports; cases reports

theorem enqueue_completion {completion : RecordedCompletion}
    (reports : RecordedCompletion.fromInput input = some completion)
    (drained : session.actionOutbox = []) (nodup : session.outstandingActions.pending.Nodup)
    (others : ∀ target, target ≠ completion.target → Covered rows target ∨ owed target →
      Covered changed target ∨ later target) :
    Covers later changed (session.enqueueAccepted input) := by
  have enqueues := session.enqueueAccepted_enqueues input
  generalize session.enqueueAccepted input = enqueued at enqueues
  have before : ∀ target ∈ session.outstandingActions.pending, Covered rows target ∨ owed target := by
    intro target mem
    have covered := covers target mem
    rw [drained] at covered
    exact covered
  cases enqueues with
  | interrupt => cases reports
  | queued noReport => rw [noReport] at reports; cases reports
  | stale otherReports stale =>
    cases otherReports.symm.trans reports
    intro target mem
    rw [drained]
    exact others target (fun same => stale (same ▸ mem)) (before target mem)
  | completion otherReports =>
    cases otherReports.symm.trans reports
    intro target mem
    obtain ⟨apart, old⟩ := nodup.mem_erase_iff.mp mem
    have covered := others target apart (before target old)
    simpa [drained] using covered

end

end Covers

/-- What is persisted has a row for all that the core waits for. -/
theorem PersistsTo.covers {owed : CompletionTarget → Prop} {db after : Database}
    {runtime persisted : RuntimeSession} {actionUpdate : Option ActionUpdate}
    {consumedInput : Option RowId} {providerReplay : List ProviderReplayItem}
    {stamps : Nat → EntryStamp} {commit : CommitOutcome} {dispatches : List PersistedAction}
    (persistsTo : PersistsTo db runtime actionUpdate consumedInput providerReplay stamps commit
      (.persisted after persisted dispatches))
    (covers : ∀ status, Covers owed (db.actionsAfter status actionUpdate) runtime.session) :
    Covers owed after.actions persisted.session := by
  cases persistsTo with
  | nothing _ noObligations =>
    simp only [OutputBatch.hasDurableObligations, outputBatch, Bool.or_eq_false_iff,
      Bool.not_eq_false', List.isEmpty_iff, isSome_eq_false_iff, isNone_iff_eq_none]
      at noObligations
    obtain ⟨⟨⟨⟨⟨_, _⟩, _⟩, noActions⟩, noUpdate⟩, _⟩ := noObligations
    have driven := (covers .completed).drive stamps
    rw [noUpdate] at driven
    intro target mem
    have covered := driven target mem
    have noneQueued : (runtime.session.drive stamps).actionOutbox = [] := noActions
    rw [noneQueued] at covered
    exact covered
  | committed _ persists =>
    obtain ⟨completed, status, hActions, hRecorded⟩ := persists.recorded
    have driven := (covers status).drive stamps
    have hAfter := Database.foldl_recordAction_actions
      (runtime.session.drive stamps).actionOutbox (completed, [])
    have hBatch : (runtime.session.drive stamps).actionOutbox.foldl Database.recordAction
      (completed, []) = (after, dispatches) := hRecorded
    have hCompleted : completed.actions = db.actionsAfter status actionUpdate := hActions
    rw [hBatch, hCompleted] at hAfter
    intro target mem
    have covered := driven target mem
    rw [← hAfter] at covered
    exact covered

end PiRelay.Runtime
