import PiRelay.AgentCore.Mailbox
import PiRelay.AgentCore.Transition
import PiRelay.Library.Loop

/-! The live loop of one agent: it takes events from the mailbox until nothing
more is due, and collects what the state machine emits in two outboxes. -/
namespace PiRelay.AgentCore

open AgentVocab
open Library (Loop)

structure AgentCoreLoop where
  mailbox : Mailbox
  state : AgentState
  lastTurnId : TurnId
  nextActionId : ActionId
  actionOutbox : List AgentAction
  transcriptItemOutbox : List TranscriptItem

def startedTurnId (items : List TranscriptItem) : Option TurnId :=
  items.findSome? fun
    | .turnStarted turnId => some turnId
    | _ => none

theorem startedTurnId_eq_none {items : List TranscriptItem}
    (unstarted : ∀ turnId, .turnStarted turnId ∉ items) : startedTurnId items = none := by
  rw [startedTurnId, List.findSome?_eq_none_iff]
  intro item hItem
  cases item with
  | turnStarted turnId => exact absurd hItem (unstarted turnId)
  | _ => rfl

namespace AgentCoreLoop

def new : AgentCoreLoop where
  mailbox := {}
  state := .idle
  lastTurnId := 0
  nextActionId := ActionId.first
  actionOutbox := []
  transcriptItemOutbox := []

def resumeAt (lastTurnId : TurnId) (nextActionId : ActionId) : AgentCoreLoop where
  mailbox := {}
  state := .idle
  lastTurnId := lastTurnId
  nextActionId := nextActionId
  actionOutbox := []
  transcriptItemOutbox := []

/-- Resume while a model request is already in flight. -/
def resumeRunningModel (turnId : TurnId) (actionId : ActionId) : AgentCoreLoop where
  mailbox := {}
  state := .runningModel turnId actionId
  lastTurnId := turnId
  nextActionId := actionId + 1
  actionOutbox := []
  transcriptItemOutbox := []

/-- Resume at the point after a tool batch has produced all results and before
the follow-up model request has been dispatched. -/
def resumeReadyToContinue (turnId : TurnId) (nextActionId : ActionId) : AgentCoreLoop where
  mailbox := {}
  state := .readyToContinue turnId
  lastTurnId := turnId
  nextActionId := nextActionId
  actionOutbox := []
  transcriptItemOutbox := []

def enqueueInput (loop : AgentCoreLoop) (input : AgentInput) : AgentCoreLoop :=
  { loop with mailbox := loop.mailbox.pushInput input }

def isIdle (loop : AgentCoreLoop) : Bool := loop.state == .idle

def isReadyToContinue (loop : AgentCoreLoop) : Bool :=
  match loop.state with
  | .readyToContinue _ => true
  | _ => false

def drainActions (loop : AgentCoreLoop) : List AgentAction × AgentCoreLoop :=
  (loop.actionOutbox, { loop with actionOutbox := [] })

def drainTranscriptItems (loop : AgentCoreLoop) : List TranscriptItem × AgentCoreLoop :=
  (loop.transcriptItemOutbox, { loop with transcriptItemOutbox := [] })

def drainPendingInputs (loop : AgentCoreLoop) : List AgentInput × AgentCoreLoop :=
  let (inputs, mailbox) := loop.mailbox.drainPendingInputs
  (inputs, { loop with mailbox })

def nextEvent (loop : AgentCoreLoop) : Option AgentEvent × Mailbox :=
  loop.mailbox.nextEvent loop.state (TurnId.next loop.lastTurnId)

/-- One iteration of `drive`, and whether another one follows. -/
def driveOnce (loop : AgentCoreLoop) : AgentCoreLoop × Bool :=
  match loop.nextEvent with
  | (none, mailbox) => ({ loop with mailbox }, false)
  | (some event, mailbox) =>
    let transition := loop.state.step event loop.nextActionId
    let loop :=
      { loop with
        mailbox
        state := transition.state
        nextActionId := transition.nextActionId }
    if transition.items.isEmpty && transition.actions.isEmpty then (loop, true)
    else
      let loop :=
        { loop with
          lastTurnId := (startedTurnId transition.items).getD loop.lastTurnId
          transcriptItemOutbox := loop.transcriptItemOutbox ++ transition.items
          actionOutbox := loop.actionOutbox ++ transition.actions }
      (loop, !loop.isReadyToContinue)

/-- The loop after a transition. With empty outputs it only stores the two cells
of the state machine, so it covers the ignored events too. -/
def apply (loop : AgentCoreLoop) (mailbox : Mailbox) (transition : Transition) : AgentCoreLoop where
  mailbox := mailbox
  state := transition.state
  lastTurnId := (startedTurnId transition.items).getD loop.lastTurnId
  nextActionId := transition.nextActionId
  actionOutbox := loop.actionOutbox ++ transition.actions
  transcriptItemOutbox := loop.transcriptItemOutbox ++ transition.items

variable {loop : AgentCoreLoop} {mailbox : Mailbox}

theorem driveOnce_of_none (hNext : loop.nextEvent = (none, mailbox)) :
    loop.driveOnce = ({ loop with mailbox }, false) := by
  rw [driveOnce, hNext]

theorem driveOnce_of_some {event : AgentEvent} (hNext : loop.nextEvent = (some event, mailbox)) :
    loop.driveOnce.1 = loop.apply mailbox (loop.state.step event loop.nextActionId) := by
  simp only [driveOnce, hNext, apply]
  split
  · rename_i quiet
    simp only [Bool.and_eq_true, List.isEmpty_iff] at quiet
    simp [quiet.1, quiet.2, startedTurnId]
  · rfl

/-- A pass fires an event, or it leaves the state alone. -/
theorem driveOnce_cases (loop : AgentCoreLoop) :
    ∃ transition, loop.driveOnce.1 = loop.apply loop.nextEvent.2 transition ∧
      (transition = emptyTransition loop.state loop.nextActionId ∨
        ∃ event, loop.nextEvent.1 = some event ∧
          AgentState.Fires loop.nextActionId loop.state event transition) := by
  rcases hNext : loop.nextEvent with ⟨_ | event, mailbox⟩
  · refine ⟨emptyTransition loop.state loop.nextActionId, ?_, .inl rfl⟩
    rw [driveOnce_of_none hNext]
    simp [apply, emptyTransition, startedTurnId]
  · refine ⟨loop.state.step event loop.nextActionId, driveOnce_of_some hNext, ?_⟩
    rcases AgentState.step_cases loop.state event loop.nextActionId with ignored | fires
    · exact .inl ignored
    · exact .inr ⟨event, rfl, fires⟩

theorem driveOnce_again_iff {event : AgentEvent} (hNext : loop.nextEvent = (some event, mailbox)) :
    loop.driveOnce.2 ↔
      ((loop.state.step event loop.nextActionId).items = [] ∧
        (loop.state.step event loop.nextActionId).actions = []) ∨
      ∀ turnId, (loop.state.step event loop.nextActionId).state ≠ .readyToContinue turnId := by
  simp only [driveOnce, hNext]
  split
  · rename_i quiet
    simp only [Bool.and_eq_true, List.isEmpty_iff] at quiet
    simp [quiet]
  · rename_i loud
    simp only [Bool.and_eq_true, List.isEmpty_iff] at loud
    simp only [loud, false_or]
    cases (loop.state.step event loop.nextActionId).state <;> simp [isReadyToContinue]

/-- Twice what the mailbox holds, and one more for the model request that a
finished batch makes by itself. -/
def pending (loop : AgentCoreLoop) : Nat :=
  2 * loop.mailbox.size + loop.isReadyToContinue.toNat

theorem takes_of_nextEvent {event : Option AgentEvent} (hNext : loop.nextEvent = (event, mailbox)) :
    Mailbox.Takes loop.mailbox (TurnId.next loop.lastTurnId) loop.state event mailbox := by
  have takes := Mailbox.nextEvent_takes loop.mailbox loop.state (TurnId.next loop.lastTurnId)
  rw [← nextEvent, hNext] at takes
  exact takes

/-- A drive that goes on has consumed something that was pending. -/
theorem pending_driveOnce (loop : AgentCoreLoop) (again : loop.driveOnce.2) :
    loop.driveOnce.1.pending < loop.pending := by
  rcases hNext : loop.nextEvent with ⟨_ | event, mailbox⟩
  · rw [driveOnce_of_none hNext] at again
    cases again
  · have hMailbox : ∀ transition, (loop.apply mailbox transition).mailbox = mailbox := fun _ => rfl
    rw [driveOnce_of_some hNext, pending, pending, hMailbox]
    rcases (takes_of_nextEvent hNext).size_cases with lower | ⟨rfl, ⟨turnId, hReady⟩, same⟩
    · have atMostOne := Bool.toNat_le
        (loop.apply mailbox (loop.state.step event loop.nextActionId)).isReadyToContinue
      omega
    · simp [apply, isReadyToContinue, AgentState.step, AgentState.onContinueModel, requestModel,
        ActionId.takeNext, hReady, same]

def driveLoop : Loop AgentCoreLoop where
  body := driveOnce
  measure := pending
  decreases := pending_driveOnce

def drive (loop : AgentCoreLoop) : AgentCoreLoop := driveLoop.run loop

theorem drive_of_again (again : loop.driveOnce.2) :
    loop.drive = loop.driveOnce.1.drive := driveLoop.run_of_again again

theorem drive_of_stop (stop : loop.driveOnce.2 = false) :
    loop.drive = loop.driveOnce.1 := driveLoop.run_of_stop stop

theorem drive_onlyCompletions (only : loop.mailbox.OnlyCompletions) :
    loop.drive.mailbox.OnlyCompletions := by
  refine driveLoop.run_invariant (motive := fun loop => loop.mailbox.OnlyCompletions) ?_ only
  intro loop only
  have takes : Mailbox.Takes _ _ _ _ loop.nextEvent.2 := takes_of_nextEvent rfl
  obtain ⟨_, hOnce, _⟩ := loop.driveOnce_cases
  have hBody : (driveLoop.body loop).1.mailbox = loop.nextEvent.2 :=
    congrArg AgentCoreLoop.mailbox hOnce
  rw [hBody]
  exact only.takes takes

theorem drive_of_runningModel {turnId : TurnId} {actionId : ActionId}
    (running : loop.state = .runningModel turnId actionId)
    (settled : loop.mailbox.notifications = []) (quiet : loop.mailbox.interruptRequested = false) :
    loop.drive = loop := by
  have hNext : loop.nextEvent = (none, loop.mailbox) := by
    obtain ⟨⟨_, _, _, _, _⟩, _, _, _, _, _⟩ := loop
    subst running settled quiet
    rfl
  have hOnce := driveOnce_of_none hNext
  rw [drive_of_stop (congrArg Prod.snd hOnce), hOnce]

theorem drive_last (loop : AgentCoreLoop) :
    ∃ last : AgentCoreLoop, last.driveOnce.2 = false ∧ loop.drive = last.driveOnce.1 := by
  refine driveLoop.run_induction (motive := fun _ final =>
    ∃ last : AgentCoreLoop, last.driveOnce.2 = false ∧ final = last.driveOnce.1) ?_ ?_ loop
  · intro last stop
    exact ⟨last, stop, rfl⟩
  · intro _ _ _ rest
    exact rest

theorem drive_quiet (loop : AgentCoreLoop) : loop.drive.mailbox.interruptRequested = false := by
  obtain ⟨last, _, hDrive⟩ := loop.drive_last
  obtain ⟨_, hOnce, _⟩ := last.driveOnce_cases
  have takes : Mailbox.Takes _ _ _ _ last.nextEvent.2 := takes_of_nextEvent rfl
  rw [hDrive, hOnce, apply]
  exact takes.quiet

/-- A drive stops when it is ready to continue or finds nothing to take. -/
theorem drive_exhausted (loop : AgentCoreLoop) (notReady : loop.drive.isReadyToContinue = false) :
    ∃ mailbox nextTurnId,
      Mailbox.Takes mailbox nextTurnId loop.drive.state none loop.drive.mailbox := by
  obtain ⟨last, stop, hDrive⟩ := loop.drive_last
  rcases hNext : last.nextEvent with ⟨_ | event, mailbox⟩
  · have takes := takes_of_nextEvent hNext
    rw [hDrive, driveOnce_of_none hNext]
    exact ⟨last.mailbox, TurnId.next last.lastTurnId, takes⟩
  · exfalso
    have goesOn : last.driveOnce.2 := by
      apply (driveOnce_again_iff hNext).mpr
      right
      intro turnId hReady
      rw [hDrive, driveOnce_of_some hNext, isReadyToContinue, apply] at notReady
      simp [hReady] at notReady
    rw [goesOn] at stop
    cases stop

end AgentCoreLoop

end PiRelay.AgentCore
