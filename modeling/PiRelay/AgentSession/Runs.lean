import PiRelay.AgentSession.Session
import PiRelay.Library.Machine

/-! Runs of a session: its constructors, then any sequence of its public calls.
A call that returns an error still counts, with the session it leaves behind. -/
namespace PiRelay.Session

open AgentVocab AgentCore List
open Library (Machine)

inductive SessionCall where
  | enqueueInput (input : AgentInput)
  | enqueueSessionInput (input : SessionInput) (stamps : Nat → EntryStamp)
  | drive (stamps : Nat → EntryStamp)
  | drainPendingInputs
  | drainActions
  | drainEvents
  | resumeModelTurn (checkpointLeafId : EntryId) (turnId : TurnId) (actionId : ActionId)
      (stamps : Nat → EntryStamp)
  | restoreCompactedRuntime (activeLeafId : EntryId) (turnId : TurnId) (actionId : ActionId)

/-- The calls that put another runtime in the place of the live one. -/
def SessionCall.replacesRuntime : SessionCall → Bool
  | .resumeModelTurn _ _ _ _ | .restoreCompactedRuntime _ _ _ => true
  | _ => false

def AgentSession.call (session : AgentSession) : SessionCall → AgentSession
  | .enqueueInput input =>
    match session.enqueueInput input with
    | .error _ => session
    | .ok enqueued => enqueued
  | .enqueueSessionInput input stamps => session.enqueueSessionInput input stamps
  | .drive stamps => session.drive stamps
  | .drainPendingInputs => session.drainPendingInputs.2
  | .drainActions => session.drainActions.2
  | .drainEvents => session.drainEvents.2
  | .resumeModelTurn checkpointLeafId turnId actionId stamps =>
    (session.resumeModelTurn checkpointLeafId turnId actionId stamps).1
  | .restoreCompactedRuntime activeLeafId turnId actionId =>
    (session.restoreCompactedRuntime activeLeafId turnId actionId).1

namespace AgentSession

/-- The ways a session comes into being. -/
inductive Constructed : AgentSession → Prop where
  | new : Constructed new
  | fromStoredSession {stored : StoredSession} {stamps : Nat → EntryStamp}
      {session : AgentSession} (loaded : fromStoredSession stored stamps = .ok session) :
      Constructed session
  | fromStoredSessionInterrupted {stored : StoredSession} {stamps : Nat → EntryStamp}
      {session : AgentSession} (loaded : fromStoredSessionInterrupted stored stamps = .ok session) :
      Constructed session
  | fromStoredSessionPreservingOpenTurn {stored : StoredSession} {session : AgentSession}
      (loaded : fromStoredSessionPreservingOpenTurn stored = .ok session) : Constructed session

theorem resumedCore_cases (context : ModelContext) :
    (∃ lastTurnId next, resumedCore context = .resumeAt lastTurnId next) ∨
      ∃ turnId next, resumedCore context = .resumeReadyToContinue turnId next := by
  rw [resumedCore]
  split
  · exact .inr ⟨_, _, rfl⟩
  · exact .inl ⟨_, _, rfl⟩

variable {session : AgentSession} {input : AgentInput}

/-- A session begins at rest, or ready to continue a turn. -/
theorem Constructed.core_cases (constructed : session.Constructed) :
    ((∃ lastTurnId next, session.core = .resumeAt lastTurnId next) ∨
        ∃ turnId next, session.core = .resumeReadyToContinue turnId next) ∧
      session.outstandingActions = {} ∧ session.actionOutbox = [] := by
  cases constructed with
  | new => exact ⟨.inl ⟨_, _, rfl⟩, rfl, rfl⟩
  | fromStoredSession loaded =>
    rw [AgentSession.fromStoredSession] at loaded
    split at loaded
    · cases loaded
    · rw [fromTranscriptStore] at loaded
      split at loaded
      · cases loaded
      · cases loaded
        exact ⟨resumedCore_cases _, rfl, rfl⟩
  | fromStoredSessionInterrupted loaded =>
    rw [AgentSession.fromStoredSessionInterrupted] at loaded
    split at loaded
    · cases loaded
    · split at loaded
      · cases loaded
      · cases loaded
        exact ⟨.inl ⟨_, _, rfl⟩, rfl, rfl⟩
  | fromStoredSessionPreservingOpenTurn loaded =>
    rw [AgentSession.fromStoredSessionPreservingOpenTurn] at loaded
    split at loaded
    · cases loaded
    · cases loaded
      exact ⟨resumedCore_cases _, rfl, rfl⟩

def calls (session : AgentSession) (list : List SessionCall) : AgentSession := list.foldl call session

def machine (initial : AgentSession → Prop) : Machine AgentSession SessionCall :=
  .ofCalls initial call

section

variable (session : AgentSession)

@[simp] theorem invalidateSessionWork_core : session.invalidateSessionWork.core = session.core := by
  rw [invalidateSessionWork, queueSessionAction]
  split <;> rfl

@[simp] theorem invalidateSessionWork_transcriptStore :
    session.invalidateSessionWork.transcriptStore = session.transcriptStore := by
  rw [invalidateSessionWork, queueSessionAction]
  split <;> rfl

@[simp] theorem invalidateSessionWork_pending :
    session.invalidateSessionWork.outstandingActions.pending = [] := by
  rw [invalidateSessionWork, queueSessionAction]
  split <;> rfl

@[simp] theorem drainCoreAction_core (action : AgentAction) :
    (session.drainCoreAction action).core = session.core := by
  cases action <;> simp [drainCoreAction, queueCoreAction, queueSessionAction]

@[simp] theorem drainCoreAction_transcriptStore (action : AgentAction) :
    (session.drainCoreAction action).transcriptStore = session.transcriptStore := by
  cases action <;> simp [drainCoreAction, queueCoreAction, queueSessionAction]

end

theorem foldl_drainCoreAction_core (actions : List AgentAction) (session : AgentSession) :
    (actions.foldl drainCoreAction session).core = session.core := by
  induction actions generalizing session with
  | nil => rfl
  | cons _ _ ih => rw [foldl_cons, ih, drainCoreAction_core]

theorem foldl_drainCoreAction_transcriptStore (actions : List AgentAction)
    (session : AgentSession) :
    (actions.foldl drainCoreAction session).transcriptStore = session.transcriptStore := by
  induction actions generalizing session with
  | nil => rfl
  | cons _ _ ih => rw [foldl_cons, ih, drainCoreAction_transcriptStore]

section

variable (session : AgentSession)

@[simp] theorem drive_core (stamps : Nat → EntryStamp) :
    (session.drive stamps).core =
      { session.core.drive with actionOutbox := [], transcriptItemOutbox := [] } := by
  rw [drive, drainCoreActions]
  rw [foldl_drainCoreAction_core]
  rfl

@[simp] theorem drive_transcriptStore (stamps : Nat → EntryStamp) :
    (session.drive stamps).transcriptStore =
      session.transcriptStore.appendTranscriptItems session.core.drive.transcriptItemOutbox
        stamps := by
  rw [drive, drainCoreActions]
  rw [foldl_drainCoreAction_transcriptStore]
  rfl

/-- Everything enqueueing an input can do. A completion is let through when its
request is pending; otherwise it is dropped. -/
inductive Enqueues (session : AgentSession) : AgentInput → AgentSession → Prop where
  | interrupt :
      Enqueues session .interrupt
        { session.invalidateSessionWork with core := session.core.enqueueInput .interrupt }
  | completion {input : AgentInput} {completion : RecordedCompletion}
      (reports : RecordedCompletion.fromInput input = some completion)
      (pending : completion.target ∈ session.outstandingActions.pending) :
      Enqueues session input
        { session with
          core := session.core.enqueueInput input
          outstandingActions :=
            { pending := session.outstandingActions.pending.erase completion.target
              completionEventsPendingTranscript :=
                session.outstandingActions.completionEventsPendingTranscript ++ [completion] }
          actionOutbox := session.actionOutbox.eraseP (·.matchesCompletion input) }
  | stale {input : AgentInput} {completion : RecordedCompletion}
      (reports : RecordedCompletion.fromInput input = some completion)
      (stale : completion.target ∉ session.outstandingActions.pending) :
      Enqueues session input session
  | queued {input : AgentInput} (noReport : RecordedCompletion.fromInput input = none)
      (noInterrupt : input ≠ .interrupt) :
      Enqueues session input { session with core := session.core.enqueueInput input }

theorem enqueueAccepted_completion {completion : RecordedCompletion}
    (reports : RecordedCompletion.fromInput input = some completion) :
    session.Enqueues input (session.enqueueAccepted input) := by
  have hAccept : session.acceptAgentInput input =
      (session.outstandingActions.acceptCompletion input).map fun outstandingActions =>
        ({ session with outstandingActions }).dropCompletedActionFromOutbox input := by
    cases input with
    | interrupt | steer _ | followUp _ | daemonObservation _ => cases reports
    | _ =>
      rw [acceptAgentInput]
      cases session.outstandingActions.acceptCompletion _ with
      | none | some => rfl
  rw [enqueueAccepted, hAccept]
  by_cases pending : completion.target ∈ session.outstandingActions.pending
  · have accepts : Enqueues session input _ := .completion reports pending
    simpa [OutstandingActions.acceptCompletion, reports, pending, dropCompletedActionFromOutbox]
      using accepts
  · have drops : Enqueues session input _ := .stale reports pending
    simpa [OutstandingActions.acceptCompletion, reports, pending] using drops

theorem enqueueAccepted_enqueues (input : AgentInput) :
    session.Enqueues input (session.enqueueAccepted input) := by
  cases input with
  | interrupt =>
    have enqueues : session.Enqueues .interrupt _ := .interrupt
    simpa [enqueueAccepted, acceptAgentInput] using enqueues
  | steer _ | followUp _ | daemonObservation _ => exact .queued rfl (by simp)
  | _ =>
    exact session.enqueueAccepted_completion rfl

end

theorem enqueueAccepted_of_stale {completion : RecordedCompletion}
    (reports : RecordedCompletion.fromInput input = some completion)
    (stale : completion.target ∉ session.outstandingActions.pending) :
    session.enqueueAccepted input = session := by
  have enqueues := session.enqueueAccepted_enqueues input
  generalize session.enqueueAccepted input = enqueued at enqueues
  cases enqueues with
  | stale => rfl
  | interrupt => cases reports
  | queued noReport => rw [noReport] at reports; cases reports
  | completion otherReports pending =>
    cases otherReports.symm.trans reports
    exact absurd pending stale

theorem call_enqueueInput (session : AgentSession) (input : AgentInput) :
    session.call (.enqueueInput input) = session ∨
      (session.call (.enqueueInput input) = session.enqueueAccepted input ∧
        ∀ actionId turnId assistant, input ≠ .modelCompleted actionId turnId assistant) := by
  cases input with
  | modelCompleted => exact .inl rfl
  | _ => exact .inr ⟨rfl, by simp⟩

theorem call_enqueueInput_of {motive : AgentSession → Prop} {input : AgentInput}
    (holds : motive session) (enqueued : motive (session.enqueueAccepted input)) :
    motive (session.call (.enqueueInput input)) := by
  rcases session.call_enqueueInput input with refused | ⟨accepted, -⟩
  · rwa [refused]
  · rwa [accepted]

theorem enqueueInput_ok {enqueued : AgentSession}
    (accepts : session.enqueueInput input = .ok enqueued) :
    enqueued = session.enqueueAccepted input := by
  cases input with
  | modelCompleted => cases accepts
  | _ => exact (Except.ok.inj accepts).symm

theorem acceptModelMaxOutputTokens_of_stale {actionId : ActionId} {turnId : TurnId}
    (stale : { actionId, turnId, tool := none } ∉ session.outstandingActions.pending)
    (assistant : AssistantMessage) (providerReplay : List ProviderReplayItem) (error : String)
    (stamps : Nat → EntryStamp) :
    session.acceptModelMaxOutputTokens actionId turnId assistant providerReplay error stamps =
      session := by
  simp [acceptModelMaxOutputTokens, OutstandingActions.acceptCompletion,
    RecordedCompletion.fromInput, RecordedCompletion.target, stale]

section

variable (session : AgentSession)

theorem acceptModelMaxOutputTokens_cases (actionId : ActionId)
    (turnId : TurnId) (assistant : AssistantMessage) (providerReplay : List ProviderReplayItem)
    (error : String) (stamps : Nat → EntryStamp) :
    ({ actionId, turnId, tool := none } ∉ session.outstandingActions.pending ∧
        session.acceptModelMaxOutputTokens actionId turnId assistant providerReplay error stamps =
          session) ∨
      ({ actionId, turnId, tool := none } ∈ session.outstandingActions.pending ∧
        session.acceptModelMaxOutputTokens actionId turnId assistant providerReplay error stamps =
          { session with
            transcriptStore :=
              (session.transcriptStore.appendItem (.assistantMessage assistant) providerReplay
                (stamps 0)).appendItem (.turnFinished turnId .crashed) [] (stamps 1)
            outstandingActions :=
              { pending := session.outstandingActions.pending.erase { actionId, turnId, tool := none }
                completionEventsPendingTranscript :=
                  session.outstandingActions.completionEventsPendingTranscript
                    ++ [.modelCompleted actionId turnId] }
            actionOutbox := session.actionOutbox.eraseP
              (·.matchesCompletion (.modelCompleted actionId turnId assistant))
            eventOutbox := session.eventOutbox
              ++ [.transcriptItemAppended (stamps 0).id (.assistantMessage assistant)]
              ++ [.transcriptItemAppended (stamps 1).id (.turnFinished turnId .crashed)]
              ++ [.actionFailed .model (toString actionId) error] }) := by
  by_cases pending : { actionId, turnId, tool := none } ∈ session.outstandingActions.pending
  · right
    refine ⟨pending, ?_⟩
    simp [acceptModelMaxOutputTokens, OutstandingActions.acceptCompletion,
      RecordedCompletion.fromInput, RecordedCompletion.target, pending, appendWithEvent,
      dropCompletedActionFromOutbox]
  · exact .inl ⟨pending, acceptModelMaxOutputTokens_of_stale pending _ _ _ _⟩

theorem enqueueAccepted_transcriptStore (input : AgentInput) :
    (session.enqueueAccepted input).transcriptStore = session.transcriptStore := by
  have enqueues := session.enqueueAccepted_enqueues input
  generalize session.enqueueAccepted input = enqueued at enqueues
  cases enqueues with
  | interrupt => exact session.invalidateSessionWork_transcriptStore
  | _ => rfl

theorem enqueueAccepted_core (input : AgentInput) :
    (session.enqueueAccepted input).core = session.core ∨
      (session.enqueueAccepted input).core = session.core.enqueueInput input := by
  have enqueues := session.enqueueAccepted_enqueues input
  generalize session.enqueueAccepted input = enqueued at enqueues
  cases enqueues with
  | stale => exact .inl rfl
  | _ => exact .inr rfl

end

theorem drainPendingInputs_queued (mailbox : Mailbox) :
    ∀ input ∈ mailbox.drainPendingInputs.1,
      RecordedCompletion.fromInput input = none ∧ input ≠ .interrupt := by
  intro input hInput
  simp only [Mailbox.drainPendingInputs, mem_append, mem_map] at hInput
  rcases hInput with (⟨content, _, rfl⟩ | ⟨content, _, rfl⟩) | ⟨observation, _, rfl⟩
  all_goals exact ⟨rfl, by simp⟩

/-- Every part of a call that makes ready for another runtime. -/
inductive Prepares (session : AgentSession) : AgentSession → Prop where
  | drained : Prepares session session.drainPendingInputs.2
  | idle (idle : session.core.state = .idle) : Prepares session session.invalidateSessionWork
  | enqueued {input : AgentInput} (noReport : RecordedCompletion.fromInput input = none) :
      Prepares session (session.enqueueAccepted input)
  | driven (stamps : Nat → EntryStamp) : Prepares session (session.drive stamps)

/-- What the other runtime is put in the place of the live one with. -/
structure Replaced (prepared : AgentSession) (turnId : TurnId) (actionId : ActionId)
    (after : AgentSession) : Prop where
  core : after.core = .resumeRunningModel turnId actionId
  pending : after.outstandingActions.pending = [{ actionId, turnId, tool := none }]
  outbox : after.actionOutbox = [] ∨ ∃ action,
    completionTargetFromSessionAction action = some { actionId, turnId, tool := none } ∧
      after.actionOutbox =
        prepared.actionOutbox.filter SessionAction.isCancelSessionWork ++ [action]

section

variable {Holds : AgentSession → Prop}
  (prepares : ∀ {before after}, Holds before → Prepares before after → Holds after)
include prepares

theorem restoreQueuedUserInputs_keeps {inputs : List AgentInput}
    (queued : ∀ input ∈ inputs, RecordedCompletion.fromInput input = none ∧ input ≠ .interrupt)
    (holds : Holds session) : Holds (session.restoreQueuedUserInputs inputs) := by
  induction inputs generalizing session with
  | nil => exact holds
  | cons input _ ih =>
    obtain ⟨noReport, noInterrupt⟩ := queued input (.head _)
    have first : Holds (session.restoreQueuedUserInputs [input]) := by
      have enqueued := prepares holds (.enqueued noReport)
      cases input with
      | interrupt => exact absurd rfl noInterrupt
      | steer | followUp | daemonObservation => exact enqueued
      | _ => cases noReport
    exact ih (forall_mem_cons.mp queued).2 first

theorem interruptLiveTurn_keeps (stamps : Nat → EntryStamp) (holds : Holds session) :
    Holds (session.interruptLiveTurn stamps) := by
  rw [interruptLiveTurn]
  split
  · rename_i idle
    rw [invalidateSessionWork_core] at idle
    exact prepares holds (.idle (beq_iff_eq.mp idle))
  · have interrupted : Holds (session.enqueueAccepted .interrupt) := prepares holds (.enqueued rfl)
    exact prepares interrupted (.driven stamps)

theorem prepareForHistoryOperation_keeps (stamps : Nat → EntryStamp) (holds : Holds session) :
    Holds (session.prepareForHistoryOperation stamps).1 := by
  have ended := interruptLiveTurn_keeps prepares stamps (prepares holds .drained)
  simp only [prepareForHistoryOperation]
  split
  · exact ended
  · exact restoreQueuedUserInputs_keeps prepares (drainPendingInputs_queued _) ended

omit prepares in
theorem queued_of_prepared {prepared : AgentSession} {stamps : Nat → EntryStamp}
    {inputs : List AgentInput}
    (hPrepare : session.prepareForHistoryOperation stamps = (prepared, .ok inputs)) :
    ∀ input ∈ inputs, RecordedCompletion.fromInput input = none ∧ input ≠ .interrupt := by
  simp only [prepareForHistoryOperation] at hPrepare
  split at hPrepare
  · injection hPrepare with _ hInputs
    rw [← Except.ok.inj hInputs]
    exact drainPendingInputs_queued session.core.mailbox
  · injection hPrepare with _ hInputs
    cases hInputs

/-- What the preparations and the replacement keep, the whole call keeps. -/
theorem call_of_replaces
    (replaced : ∀ {before after turnId actionId},
      Holds before → before.Replaced turnId actionId after → Holds after)
    {call : SessionCall} (replaces : call.replacesRuntime) (holds : Holds session) :
    Holds (session.call call) := by
  cases call with
  | restoreCompactedRuntime activeLeafId turnId actionId =>
    rw [AgentSession.call, restoreCompactedRuntime]
    split
    · exact holds
    · exact replaced holds ⟨rfl, rfl, .inl rfl⟩
  | resumeModelTurn checkpointLeafId turnId actionId stamps =>
    have prepared := prepareForHistoryOperation_keeps prepares stamps holds
    rw [AgentSession.call, resumeModelTurn]
    split
    · exact holds
    · split
      · rename_i hPrepare
        rw [hPrepare] at prepared
        exact prepared
      · rename_i hPrepare
        rw [hPrepare] at prepared
        have queued := queued_of_prepared hPrepare
        split
        · exact restoreQueuedUserInputs_keeps prepares queued prepared
        · apply restoreQueuedUserInputs_keeps prepares queued
          exact replaced prepared ⟨rfl, rfl, .inr ⟨_, rfl, rfl⟩⟩
  | _ => cases replaces

end

end AgentSession

end PiRelay.Session
