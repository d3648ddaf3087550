import PiRelay.AgentCore.State

/-! Volatile prioritized queues feeding the live agent. An interrupt comes
first, then the notifications, then the queued inputs the current state has room
for. Taking an event is destructive: what is popped here and ignored by the
state machine would be gone. -/
namespace PiRelay.AgentCore

open AgentVocab List

structure Mailbox where
  notifications : List AgentEvent := []
  steer : List TurnInput := []
  followUp : List TurnInput := []
  daemonObservations : List DaemonToolObservation := []
  interruptRequested : Bool := false
deriving DecidableEq

/-- The states an interrupt has something to end in. -/
def AgentState.isActive : AgentState → Bool
  | .idle => false
  | .runningModel _ _ | .runningTools _ _ _ | .readyToContinue _ => true

namespace Mailbox

variable (mailbox : Mailbox)

def pushNotificationBack (notification : AgentEvent) : Mailbox :=
  { mailbox with notifications := mailbox.notifications ++ [notification] }

def requestInterrupt : Mailbox :=
  { mailbox with interruptRequested := true }

def pushInput : AgentInput → Mailbox
  | .interrupt => mailbox.requestInterrupt
  | .steer content => { mailbox with steer := mailbox.steer ++ [content] }
  | .followUp content => { mailbox with followUp := mailbox.followUp ++ [content] }
  | .daemonObservation observation =>
    { mailbox with daemonObservations := mailbox.daemonObservations ++ [observation] }
  | .modelCompleted actionId turnId assistant =>
    mailbox.pushNotificationBack (.modelCompleted actionId turnId assistant)
  | .modelFailed actionId turnId error =>
    mailbox.pushNotificationBack (.modelFailed actionId turnId error)
  | .toolCompleted actionId turnId result =>
    mailbox.pushNotificationBack (.toolCompleted actionId turnId result)

def popUserInputEntry : Option (TurnInput × Mailbox) :=
  match mailbox.steer with
  | input :: rest => some (input, { mailbox with steer := rest })
  | [] =>
    match mailbox.followUp with
    | input :: rest => some (input, { mailbox with followUp := rest })
    | [] => none

def popDaemonObservationEntry : Option (DaemonToolObservation × Mailbox) :=
  match mailbox.daemonObservations with
  | observation :: rest => some (observation, { mailbox with daemonObservations := rest })
  | [] => none

def popSteerInputEntry : Option (TurnInput × Mailbox) :=
  match mailbox.steer with
  | input :: rest => some (input, { mailbox with steer := rest })
  | [] => none

/-- Drain every queued turn-starting input in dispatch order. Notifications and
the interrupt flag are left untouched. -/
def drainPendingInputs : List AgentInput × Mailbox :=
  (mailbox.steer.map .steer ++ mailbox.followUp.map .followUp
      ++ mailbox.daemonObservations.map .daemonObservation,
    { mailbox with steer := [], followUp := [], daemonObservations := [] })

def nextEvent (state : AgentState) (nextTurnId : TurnId) : Option AgentEvent × Mailbox :=
  let requested := mailbox.interruptRequested
  let mailbox := { mailbox with interruptRequested := false }
  if requested && state.isActive then (some .interrupt, mailbox)
  else
    match mailbox.notifications with
    | notification :: rest => (some notification, { mailbox with notifications := rest })
    | [] =>
      match state with
      | .readyToContinue _ =>
        match mailbox.popSteerInputEntry with
        | some (input, mailbox) => (some (.steer input), mailbox)
        | none =>
          match mailbox.popDaemonObservationEntry with
          | some (observation, mailbox) => (some (.daemonObservation observation), mailbox)
          | none => (some .continueModel, mailbox)
      | .idle =>
        match mailbox.popUserInputEntry with
        | some (input, mailbox) => (some (.startTurn nextTurnId input), mailbox)
        | none =>
          match mailbox.popDaemonObservationEntry with
          | some (observation, mailbox) =>
            (some (.startDaemonObservationTurn nextTurnId observation), mailbox)
          | none => (none, mailbox)
      | .runningModel _ _ | .runningTools _ _ _ => (none, mailbox)

/-- How many events the mailbox can still hand out by itself. -/
def size : Nat :=
  mailbox.notifications.length + mailbox.steer.length + mailbox.followUp.length
    + mailbox.daemonObservations.length + mailbox.interruptRequested.toNat

/-- Everything `nextEvent` can do. Where it hands out nothing, no notification
is left and the state is not one that could go on. -/
inductive Takes (mailbox : Mailbox) (nextTurnId : TurnId) :
    AgentState → Option AgentEvent → Mailbox → Prop where
  | interrupt {state : AgentState} (active : state.isActive = true)
      (requested : mailbox.interruptRequested = true) :
      Takes mailbox nextTurnId state (some .interrupt)
        { mailbox with interruptRequested := false }
  | notification {state : AgentState} {notification : AgentEvent} {rest : List AgentEvent}
      (quiet : (mailbox.interruptRequested && state.isActive) = false)
      (first : mailbox.notifications = notification :: rest) :
      Takes mailbox nextTurnId state (some notification)
        { mailbox with notifications := rest, interruptRequested := false }
  | steer {turnId : TurnId} {input : TurnInput} {rest : List TurnInput}
      (quiet : mailbox.interruptRequested = false) (settled : mailbox.notifications = [])
      (first : mailbox.steer = input :: rest) :
      Takes mailbox nextTurnId (.readyToContinue turnId) (some (.steer input))
        { mailbox with steer := rest, interruptRequested := false }
  | daemonObservation {turnId : TurnId} {observation : DaemonToolObservation}
      {rest : List DaemonToolObservation}
      (quiet : mailbox.interruptRequested = false) (settled : mailbox.notifications = [])
      (noSteer : mailbox.steer = [])
      (first : mailbox.daemonObservations = observation :: rest) :
      Takes mailbox nextTurnId (.readyToContinue turnId) (some (.daemonObservation observation))
        { mailbox with daemonObservations := rest, interruptRequested := false }
  | continueModel {turnId : TurnId}
      (quiet : mailbox.interruptRequested = false) (settled : mailbox.notifications = [])
      (noSteer : mailbox.steer = []) (noObservation : mailbox.daemonObservations = []) :
      Takes mailbox nextTurnId (.readyToContinue turnId) (some .continueModel)
        { mailbox with interruptRequested := false }
  | startSteer {input : TurnInput} {rest : List TurnInput}
      (settled : mailbox.notifications = []) (first : mailbox.steer = input :: rest) :
      Takes mailbox nextTurnId .idle (some (.startTurn nextTurnId input))
        { mailbox with steer := rest, interruptRequested := false }
  | startFollowUp {input : TurnInput} {rest : List TurnInput}
      (settled : mailbox.notifications = []) (noSteer : mailbox.steer = [])
      (first : mailbox.followUp = input :: rest) :
      Takes mailbox nextTurnId .idle (some (.startTurn nextTurnId input))
        { mailbox with followUp := rest, interruptRequested := false }
  | startObservation {observation : DaemonToolObservation} {rest : List DaemonToolObservation}
      (settled : mailbox.notifications = []) (noSteer : mailbox.steer = [])
      (noFollowUp : mailbox.followUp = [])
      (first : mailbox.daemonObservations = observation :: rest) :
      Takes mailbox nextTurnId .idle (some (.startDaemonObservationTurn nextTurnId observation))
        { mailbox with daemonObservations := rest, interruptRequested := false }
  | emptyIdle (settled : mailbox.notifications = []) (noSteer : mailbox.steer = [])
      (noFollowUp : mailbox.followUp = []) (noObservation : mailbox.daemonObservations = []) :
      Takes mailbox nextTurnId .idle none { mailbox with interruptRequested := false }
  | waiting {state : AgentState} (active : state.isActive = true)
      (notReady : ∀ turnId, state ≠ .readyToContinue turnId)
      (quiet : mailbox.interruptRequested = false) (settled : mailbox.notifications = []) :
      Takes mailbox nextTurnId state none { mailbox with interruptRequested := false }

/-- What the next event is, by what waits in the mailbox. -/
theorem nextEvent_takes (state : AgentState) (nextTurnId : TurnId) :
    Takes mailbox nextTurnId state (mailbox.nextEvent state nextTurnId).1
      (mailbox.nextEvent state nextTurnId).2 := by
  obtain ⟨notifications, steer, followUp, observations, requested⟩ := mailbox
  cases urgent : requested && state.isActive with
  | true =>
    obtain ⟨rfl, active⟩ := Bool.and_eq_true_iff.mp urgent
    simp only [nextEvent, active, Bool.and_self, ↓reduceIte]
    exact .interrupt active rfl
  | false =>
    cases notifications with
    | cons notification =>
      simp only [nextEvent, urgent, Bool.false_eq_true, ↓reduceIte]
      exact .notification urgent rfl
    | nil =>
      cases state with
      | runningModel | runningTools =>
        cases requested with
        | true => exact absurd urgent (by simp [AgentState.isActive])
        | false => exact .waiting rfl (by simp) rfl rfl
      | readyToContinue =>
        cases requested with
        | true => exact absurd urgent (by simp [AgentState.isActive])
        | false =>
          cases steer with
          | cons => exact .steer rfl rfl rfl
          | nil =>
            cases observations with
            | cons => exact .daemonObservation rfl rfl rfl rfl
            | nil => exact .continueModel rfl rfl rfl rfl
      | idle =>
        simp only [nextEvent, urgent, Bool.false_eq_true, ↓reduceIte]
        cases steer with
        | cons => exact .startSteer rfl rfl
        | nil =>
          cases followUp with
          | cons => exact .startFollowUp rfl rfl rfl
          | nil =>
            cases observations with
            | cons => exact .startObservation rfl rfl rfl rfl
            | nil => exact .emptyIdle rfl rfl rfl rfl

theorem Takes.size_cases {mailbox after : Mailbox} {nextTurnId : TurnId} {state : AgentState}
    {event : AgentEvent} (takes : Takes mailbox nextTurnId state (some event) after) :
    after.size < mailbox.size ∨
      (event = .continueModel ∧ (∃ turnId, state = .readyToContinue turnId) ∧
        after.size = mailbox.size) := by
  cases takes with
  | interrupt _ requested => exact .inl (by simp [size, requested])
  | notification _ first | steer _ _ first | daemonObservation _ _ _ first | startSteer _ first
  | startFollowUp _ _ first
  | startObservation _ _ _ first => exact .inl (by simp [size, first]; omega)
  | continueModel quiet => exact .inr ⟨rfl, ⟨_, rfl⟩, by simp [size, quiet]⟩

end Mailbox

/-- The events that report the end of a request. -/
def AgentEvent.isCompletion : AgentEvent → Bool
  | .modelCompleted _ _ _ | .modelFailed _ _ _ | .toolCompleted _ _ _ => true
  | _ => false

/-- The notification an input becomes, when it is the end of a request. -/
def AgentInput.completion : AgentInput → Option AgentEvent
  | .modelCompleted actionId turnId assistant => some (.modelCompleted actionId turnId assistant)
  | .modelFailed actionId turnId error => some (.modelFailed actionId turnId error)
  | .toolCompleted actionId turnId result => some (.toolCompleted actionId turnId result)
  | .interrupt | .steer _ | .followUp _ | .daemonObservation _ => none

theorem AgentInput.isCompletion_of_completion {input : AgentInput} {event : AgentEvent}
    (hEvent : input.completion = some event) : event.isCompletion := by
  cases input with
  | interrupt | steer _ | followUp _ | daemonObservation _ => cases hEvent
  | _ =>
    cases hEvent
    rfl

theorem Mailbox.pushInput_notifications (mailbox : Mailbox) (input : AgentInput) :
    (mailbox.pushInput input).notifications = mailbox.notifications ++ input.completion.toList := by
  cases input <;> simp [pushInput, AgentInput.completion, requestInterrupt, pushNotificationBack]

namespace Mailbox

/-- Inputs put only completions among the notifications. -/
def OnlyCompletions (mailbox : Mailbox) : Prop :=
  ∀ event ∈ mailbox.notifications, event.isCompletion = true

variable {mailbox after : Mailbox} {nextTurnId : TurnId} {state : AgentState}

theorem OnlyCompletions.pushInput (only : mailbox.OnlyCompletions) (input : AgentInput) :
    (mailbox.pushInput input).OnlyCompletions := by
  intro event hEvent
  rw [pushInput_notifications] at hEvent
  rcases mem_append.mp hEvent with old | new
  · exact only event old
  · exact AgentInput.isCompletion_of_completion (Option.mem_toList.mp new)

variable {event : Option AgentEvent} {turnId : TurnId}

theorem Takes.notifications_subset (takes : Takes mailbox nextTurnId state event after) :
    after.notifications ⊆ mailbox.notifications := by
  cases takes with
  | notification _ first =>
    rw [first]
    exact subset_cons_self _ _
  | _ => exact List.Subset.refl _

section

variable (only : mailbox.OnlyCompletions)
include only

theorem OnlyCompletions.takes (takes : Takes mailbox nextTurnId state event after) :
    after.OnlyCompletions :=
  fun event hEvent => only event (takes.notifications_subset hEvent)

theorem OnlyCompletions.startTurn_eq {input : TurnInput}
    (takes : Takes mailbox nextTurnId state (some (.startTurn turnId input)) after) :
    turnId = nextTurnId := by
  cases takes with
  | notification _ first =>
    exact absurd (only _ (first ▸ mem_cons_self)) (by simp [AgentEvent.isCompletion])
  | startSteer | startFollowUp => rfl

theorem OnlyCompletions.startObservation_eq {observation : DaemonToolObservation}
    (takes : Takes mailbox nextTurnId state
      (some (.startDaemonObservationTurn turnId observation)) after) : turnId = nextTurnId := by
  cases takes with
  | notification _ first =>
    exact absurd (only _ (first ▸ mem_cons_self)) (by simp [AgentEvent.isCompletion])
  | startObservation => rfl

end

theorem Takes.quiet (takes : Takes mailbox nextTurnId state event after) :
    after.interruptRequested = false := by
  cases takes <;> rfl

theorem Takes.settled_of_none (takes : Takes mailbox nextTurnId state none after) :
    after.notifications = [] := by
  cases takes with
  | emptyIdle settled | waiting _ _ _ settled => exact settled

theorem Takes.completion_mem {event : AgentEvent}
    (takes : Takes mailbox nextTurnId state (some event) after)
    (completion : event.isCompletion) : event ∈ mailbox.notifications := by
  cases takes with
  | notification _ first => exact first ▸ mem_cons_self
  | _ => cases completion

theorem Takes.runningTools_cases {tools : List RunningTool} {index : Nat}
    (takes : Takes mailbox nextTurnId (.runningTools turnId tools index) event after)
    (quiet : mailbox.interruptRequested = false) :
    after.interruptRequested = false ∧
      ((event = none ∧ mailbox.notifications = [] ∧ after.notifications = []) ∨
        ∃ first, event = some first ∧ mailbox.notifications = first :: after.notifications) := by
  cases takes with
  | interrupt _ requested => exact absurd (quiet.symm.trans requested) Bool.false_ne_true
  | notification _ first => exact ⟨rfl, .inr ⟨_, rfl, first⟩⟩
  | waiting _ _ _ settled => exact ⟨rfl, .inl ⟨rfl, settled, settled⟩⟩

end Mailbox

end PiRelay.AgentCore
