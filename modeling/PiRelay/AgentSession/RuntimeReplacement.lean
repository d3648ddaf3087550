import PiRelay.AgentSession.AppendedEntries
import PiRelay.AgentCore.Quiescence

/-! The two operations that throw the live core away, and what becomes of the
inputs queued in its mailbox. Resuming a model turn drains them first and queues
them again on every way out. Restoring a compacted runtime installs a core with an
empty mailbox, so it keeps the queued inputs only where there are none. -/
namespace PiRelay.AgentCore

open AgentVocab List

/-- What waits in a mailbox for a turn, class by class. -/
structure QueuedInputs where
  steer : List TurnInput
  followUp : List TurnInput
  daemonObservations : List DaemonToolObservation
deriving DecidableEq

namespace QueuedInputs

def isEmpty (queued : QueuedInputs) : Bool :=
  queued.steer.isEmpty && queued.followUp.isEmpty && queued.daemonObservations.isEmpty

/-- The inputs that bring the queued contents back, as they are drained. -/
def inputs (queued : QueuedInputs) : List AgentInput :=
  queued.steer.map .steer ++ queued.followUp.map .followUp
    ++ queued.daemonObservations.map .daemonObservation

theorem isEmpty_iff {queued : QueuedInputs} : queued.isEmpty ↔ queued = ⟨[], [], []⟩ := by
  obtain ⟨-, -, -⟩ := queued
  simp [isEmpty, and_assoc]

end QueuedInputs

namespace Mailbox

def queuedInputs (mailbox : Mailbox) : QueuedInputs where
  steer := mailbox.steer
  followUp := mailbox.followUp
  daemonObservations := mailbox.daemonObservations

theorem foldl_pushInput {α : Type} {queue : Mailbox → List α} {content : AgentInput → Option α}
    (grows : ∀ mailbox input, queue (mailbox.pushInput input) = queue mailbox ++ (content input).toList)
    (inputs : List AgentInput) (mailbox : Mailbox) :
    queue (inputs.foldl pushInput mailbox) = queue mailbox ++ inputs.filterMap content := by
  induction inputs generalizing mailbox with
  | nil => simp
  | cons input _ ih =>
    rw [foldl_cons, ih, grows, append_assoc]
    cases hContent : content input <;> simp [hContent]

def steerContent : AgentInput → Option TurnInput
  | .steer content => some content
  | _ => none

def followUpContent : AgentInput → Option TurnInput
  | .followUp content => some content
  | _ => none

def observationContent : AgentInput → Option DaemonToolObservation
  | .daemonObservation observation => some observation
  | _ => none

theorem queuedInputs_foldl_inputs {mailbox : Mailbox} (empty : mailbox.queuedInputs = ⟨[], [], []⟩)
    (queued : QueuedInputs) : (queued.inputs.foldl pushInput mailbox).queuedInputs = queued := by
  obtain ⟨-, -, -⟩ := queued
  rw [queuedInputs, QueuedInputs.mk.injEq] at empty ⊢
  obtain ⟨noSteer, noFollowUp, noObservations⟩ := empty
  have steerGrows : ∀ (mailbox : Mailbox) input,
      (mailbox.pushInput input).steer = mailbox.steer ++ (steerContent input).toList := by
    intro mailbox input
    cases input <;> simp [pushInput, steerContent, requestInterrupt, pushNotificationBack]
  have followUpGrows : ∀ (mailbox : Mailbox) input,
      (mailbox.pushInput input).followUp = mailbox.followUp ++ (followUpContent input).toList := by
    intro mailbox input
    cases input <;> simp [pushInput, followUpContent, requestInterrupt, pushNotificationBack]
  have observationsGrow : ∀ (mailbox : Mailbox) input,
      (mailbox.pushInput input).daemonObservations =
        mailbox.daemonObservations ++ (observationContent input).toList := by
    intro mailbox input
    cases input <;> simp [pushInput, observationContent, requestInterrupt, pushNotificationBack]
  rw [foldl_pushInput steerGrows, foldl_pushInput followUpGrows, foldl_pushInput observationsGrow,
    noSteer, noFollowUp, noObservations]
  simp [QueuedInputs.inputs, filterMap_map, Function.comp_def, steerContent, followUpContent,
    observationContent]

theorem Takes.queuedInputs_empty {mailbox after : Mailbox} {nextTurnId : TurnId}
    {state : AgentState} {event : Option AgentEvent}
    (takes : mailbox.Takes nextTurnId state event after)
    (empty : mailbox.queuedInputs = ⟨[], [], []⟩) : after.queuedInputs = ⟨[], [], []⟩ := by
  rw [queuedInputs, QueuedInputs.mk.injEq] at empty
  cases takes with
  | steer _ _ first | startSteer _ first => rw [empty.1] at first; cases first
  | startFollowUp _ _ first => rw [empty.2.1] at first; cases first
  | daemonObservation _ _ _ first | startObservation _ _ _ first =>
    rw [empty.2.2] at first
    cases first
  | _ =>
    simpa [queuedInputs] using empty

end Mailbox

theorem AgentCoreLoop.drive_queuedInputs_empty {loop : AgentCoreLoop}
    (empty : loop.mailbox.queuedInputs = ⟨[], [], []⟩) :
    loop.drive.mailbox.queuedInputs = ⟨[], [], []⟩ := by
  refine driveLoop.run_invariant
    (motive := fun loop => loop.mailbox.queuedInputs = ⟨[], [], []⟩) ?_ empty
  intro loop empty
  have hBody : (driveLoop.body loop).1.mailbox = loop.nextEvent.2 := loop.driveOnce_mailbox
  rw [hBody]
  exact (takes_of_nextEvent rfl).queuedInputs_empty empty

theorem AgentCoreLoop.foldl_enqueueInput_mailbox (inputs : List AgentInput) (loop : AgentCoreLoop) :
    (inputs.foldl enqueueInput loop).mailbox = inputs.foldl Mailbox.pushInput loop.mailbox := by
  induction inputs generalizing loop with
  | nil => rfl
  | cons input _ ih => exact ih (loop.enqueueInput input)

end PiRelay.AgentCore

namespace PiRelay.Session

open AgentVocab AgentCore List

theorem TranscriptStore.containsEntry_iff {store : TranscriptStore} {id : EntryId} :
    store.containsEntry id ↔ id ∈ entryIds store.nodes := by
  simp [containsEntry, getEntry, entryIds]

inductive RuntimeReplacement where
  | resumeModelTurn (checkpointLeafId : EntryId) (turnId : TurnId) (actionId : ActionId)
      (stamps : Nat → EntryStamp)
  | restoreCompactedRuntime (activeLeafId : EntryId) (turnId : TurnId) (actionId : ActionId)

namespace AgentSession

def replaceRuntime (session : AgentSession) :
    RuntimeReplacement → AgentSession × Except HistoryOperationError Unit
  | .resumeModelTurn checkpointLeafId turnId actionId stamps =>
    session.resumeModelTurn checkpointLeafId turnId actionId stamps
  | .restoreCompactedRuntime activeLeafId turnId actionId =>
    session.restoreCompactedRuntime activeLeafId turnId actionId

def queuedInputs (session : AgentSession) : QueuedInputs := session.core.mailbox.queuedInputs

variable {session : AgentSession}

theorem restoreQueuedUserInputs_queuedInputs (empty : session.queuedInputs = ⟨[], [], []⟩)
    (queued : QueuedInputs) :
    (session.restoreQueuedUserInputs queued.inputs).queuedInputs = queued := by
  rw [queuedInputs, restoreQueuedUserInputs, AgentCoreLoop.foldl_enqueueInput_mailbox]
  exact Mailbox.queuedInputs_foldl_inputs empty queued

theorem interruptLiveTurn_queuedInputs (stamps : Nat → EntryStamp)
    (empty : session.queuedInputs = ⟨[], [], []⟩) :
    (session.interruptLiveTurn stamps).queuedInputs = ⟨[], [], []⟩ := by
  rw [interruptLiveTurn, queuedInputs]
  rw [invalidateSessionWork_core]
  split
  · rw [invalidateSessionWork_core]
    exact empty
  · rw [drive_core]
    exact AgentCoreLoop.drive_queuedInputs_empty empty

theorem interruptLiveTurn_containsEntry (stamps : Nat → EntryStamp) {id : EntryId}
    (contains : session.transcriptStore.containsEntry id) :
    (session.interruptLiveTurn stamps).transcriptStore.containsEntry id := by
  rw [interruptLiveTurn]
  split
  · rw [invalidateSessionWork_transcriptStore]
    exact contains
  · rw [drive_transcriptStore, TranscriptStore.containsEntry_iff,
      TranscriptStore.appendTranscriptItems_nodes, entryIds_append,
      invalidateSessionWork_transcriptStore]
    exact mem_append_left _ (TranscriptStore.containsEntry_iff.mp contains)

variable (session : AgentSession)

theorem prepareForHistoryOperation_cases (stamps : Nat → EntryStamp) :
    ∃ ended : AgentSession, ended.queuedInputs = ⟨[], [], []⟩ ∧
      (∀ id, session.transcriptStore.containsEntry id →
        ended.transcriptStore.containsEntry id) ∧
      (session.prepareForHistoryOperation stamps =
          (ended.restoreQueuedUserInputs session.queuedInputs.inputs, .error .busy) ∨
        session.prepareForHistoryOperation stamps = (ended, .ok session.queuedInputs.inputs)) := by
  refine ⟨session.drainPendingInputs.2.interruptLiveTurn stamps,
    interruptLiveTurn_queuedInputs stamps rfl, ?_, ?_⟩
  · intro id contains
    exact interruptLiveTurn_containsEntry stamps contains
  · simp only [prepareForHistoryOperation]
    split
    · exact .inr rfl
    · exact .inl rfl

theorem resumeModelTurn_keeps (checkpointLeafId : EntryId) (turnId : TurnId) (actionId : ActionId)
    (stamps : Nat → EntryStamp) :
    (session.resumeModelTurn checkpointLeafId turnId actionId stamps).1.queuedInputs =
        session.queuedInputs ∧
      ((session.resumeModelTurn checkpointLeafId turnId actionId stamps).2 =
          .error (.store .entryNotFound) →
        (session.resumeModelTurn checkpointLeafId turnId actionId stamps).1 = session) := by
  rw [resumeModelTurn]
  split
  · exact ⟨rfl, fun _ => rfl⟩
  · rename_i hContains
    obtain ⟨_, empty, kept, busy | prepared⟩ := session.prepareForHistoryOperation_cases stamps
    · simp only [busy]
      exact ⟨restoreQueuedUserInputs_queuedInputs empty _, fun failed => by cases failed⟩
    · have found := kept checkpointLeafId (by simpa using hContains)
      simp only [prepared, TranscriptStore.setActiveLeafToEntry, found, ↓reduceIte]
      exact ⟨restoreQueuedUserInputs_queuedInputs rfl _, fun failed => by cases failed⟩

theorem restoreCompactedRuntime_of_unknown {activeLeafId : EntryId} (turnId : TurnId)
    (actionId : ActionId) (unknown : session.transcriptStore.containsEntry activeLeafId = false) :
    session.restoreCompactedRuntime activeLeafId turnId actionId =
      (session, .error (.store .entryNotFound)) := by
  simp [restoreCompactedRuntime, TranscriptStore.setActiveLeafToEntry, unknown]

theorem restoreCompactedRuntime_of_known {activeLeafId : EntryId} (turnId : TurnId)
    (actionId : ActionId) (known : session.transcriptStore.containsEntry activeLeafId) :
    (session.restoreCompactedRuntime activeLeafId turnId actionId).1.queuedInputs = ⟨[], [], []⟩ ∧
      (session.restoreCompactedRuntime activeLeafId turnId actionId).2 = .ok () := by
  simp only [restoreCompactedRuntime, TranscriptStore.setActiveLeafToEntry, known, ↓reduceIte]
  exact ⟨rfl, trivial⟩

/-- The queued inputs are kept, class by class and in order, and the failures that
are to leave the session alone leave all of it alone. -/
def KeepsQueuedInput (session : AgentSession) (replacement : RuntimeReplacement) : Prop :=
  (session.replaceRuntime replacement).1.queuedInputs = session.queuedInputs ∧
    ∀ error, (session.replaceRuntime replacement).2 = .error error →
      (match replacement with
        | .resumeModelTurn _ _ _ _ => error = .store .entryNotFound
        | .restoreCompactedRuntime _ _ _ => True) →
      (session.replaceRuntime replacement).1 = session

def queueSafe (session : AgentSession) : RuntimeReplacement → Bool
  | .resumeModelTurn _ _ _ _ => true
  | .restoreCompactedRuntime activeLeafId _ _ =>
    !session.transcriptStore.containsEntry activeLeafId || session.queuedInputs.isEmpty

/-- A replacement keeps the queued input exactly when it resumes a model turn, when
it fails for an unknown leaf, or when nothing is queued. -/
theorem keepsQueuedInput_iff (session : AgentSession) (replacement : RuntimeReplacement) :
    session.KeepsQueuedInput replacement ↔ session.queueSafe replacement = true := by
  cases replacement with
  | resumeModelTurn checkpointLeafId turnId actionId stamps =>
    have keeps := session.resumeModelTurn_keeps checkpointLeafId turnId actionId stamps
    refine ⟨fun _ => rfl, fun _ => ⟨keeps.1, ?_⟩⟩
    intro error failed unknown
    subst unknown
    exact keeps.2 failed
  | restoreCompactedRuntime activeLeafId turnId actionId =>
    cases known : session.transcriptStore.containsEntry activeLeafId with
    | false =>
      have failed := session.restoreCompactedRuntime_of_unknown turnId actionId known
      simp [KeepsQueuedInput, replaceRuntime, failed, queueSafe, known]
    | true =>
      obtain ⟨emptied, ok⟩ := session.restoreCompactedRuntime_of_known turnId actionId known
      rw [queueSafe, known, Bool.not_true, Bool.false_or, QueuedInputs.isEmpty_iff]
      rw [KeepsQueuedInput, replaceRuntime, emptied, ok]
      constructor
      · intro keeps
        exact keeps.1.symm
      · intro empty
        exact ⟨empty.symm, nofun⟩

/-- A steer queued while the model runs is gone once a compacted runtime is
restored at the active leaf. -/
theorem restoreCompactedRuntime_drops_steer :
    let session := new.calls
      [.enqueueInput (.followUp { message := .text "go" }),
        .drive fun draw => { id := if draw = 0 then "a" else "b", timestampMs := 0 },
        .enqueueInput (.steer { message := .text "wait" })]
    session.queuedInputs.steer = [{ message := .text "wait" }] ∧
      (session.restoreCompactedRuntime "b" 1 1).2 = .ok () ∧
      (session.restoreCompactedRuntime "b" 1 1).1.queuedInputs.steer = [] ∧
      ¬ session.KeepsQueuedInput (.restoreCompactedRuntime "b" 1 1) := by
  refine ⟨by decide, by decide, by decide, ?_⟩
  intro keeps
  exact absurd keeps.1 (by decide)

end AgentSession

end PiRelay.Session
