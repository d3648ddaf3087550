import PiRelay.AgentCore.Trace

/-! No input is lost, duplicated or reordered within its class. `nextEvent` pops
an entry on a look at the state and `step` ignores what does not fit, so the two
have to agree in every state. The account below follows each input from the call
that enqueued it to the item that carries it. -/
namespace PiRelay.AgentCore

open AgentVocab TranscriptItem AgentInput AgentState List

/-- The queues of the mailbox that wait for room in a turn. -/
inductive InputClass where
  | steer
  | followUp
  | daemonObservation
deriving DecidableEq

def AgentInput.inClass (inputClass : InputClass) : AgentInput → Bool
  | .steer _ => inputClass = .steer
  | .followUp _ => inputClass = .followUp
  | .daemonObservation _ => inputClass = .daemonObservation
  | .interrupt | .modelCompleted _ _ _ | .modelFailed _ _ _ | .toolCompleted _ _ _ => false

def AgentInput.transcriptItems : AgentInput → List TranscriptItem
  | .steer content | .followUp content => [content.intoTranscriptItem]
  | .daemonObservation observation => [.daemonToolObservation observation]
  | .interrupt | .modelCompleted _ _ _ | .modelFailed _ _ _ | .toolCompleted _ _ _ => []

theorem filter_isInput_results {α : Type} (values : List α) (result : α → ToolResultMessage) :
    (values.map fun value => TranscriptItem.toolResult (result value)).filter
      TranscriptItem.isInput = [] := by
  rw [filter_eq_nil_iff]
  intro item hItem
  obtain ⟨value, _, rfl⟩ := mem_map.mp hItem
  simp [isInput]

theorem AgentState.Fires.quiet_items {next : ActionId} {state : AgentState}
    {event : AgentEvent} {transition : Transition} (fires : Fires next state event transition)
    (quiet : event.isCompletion ∨ event = .interrupt) :
    transition.items.filter TranscriptItem.isInput = [] := by
  cases fires with
  | finish | fail | interruptReady | interruptModel => rfl
  | startTools => simp [startTools_items, isInput]
  | recordResult =>
    rw [recordResult_eq]
    exact filter_isInput_results _ id
  | interruptTools =>
    rw [filter_append, filter_isInput_results]
    rfl
  | _ => simp [AgentEvent.isCompletion] at quiet

theorem AgentState.step_quiet_items {event : AgentEvent} (state : AgentState) (next : ActionId)
    (quiet : event.isCompletion ∨ event = .interrupt) :
    (state.step event next).items.filter TranscriptItem.isInput = [] := by
  rcases step_cases state event next with ignored | fires
  · simp [ignored, emptyTransition]
  · exact fires.quiet_items quiet

/-- What a queue lost at its front. -/
def lost {α : Type} (before after : List α) : List α :=
  before.take (before.length - after.length)

@[simp] theorem lost_self {α : Type} (queue : List α) : lost queue queue = [] := by
  simp [lost]

@[simp] theorem lost_cons {α : Type} (entry : α) (rest : List α) :
    lost (entry :: rest) rest = [entry] := by
  simp [lost]

namespace Mailbox

def queue (mailbox : Mailbox) : InputClass → List AgentInput
  | .steer => mailbox.steer.map .steer
  | .followUp => mailbox.followUp.map .followUp
  | .daemonObservation => mailbox.daemonObservations.map .daemonObservation

/-- The entries that went from the input queues between two mailboxes. -/
def popped (before after : Mailbox) : List AgentInput :=
  (lost before.steer after.steer).map .steer ++ (lost before.followUp after.followUp).map .followUp
    ++ (lost before.daemonObservations after.daemonObservations).map .daemonObservation

variable {mailbox after : Mailbox} {nextTurnId : TurnId} {state : AgentState}

theorem pushInput_queue (mailbox : Mailbox) (input : AgentInput) (inputClass : InputClass) :
    (mailbox.pushInput input).queue inputClass =
      mailbox.queue inputClass ++ [input].filter (·.inClass inputClass) := by
  cases input <;> cases inputClass <;>
    simp [pushInput, queue, inClass, requestInterrupt, pushNotificationBack]

theorem drainPendingInputs_queue (mailbox : Mailbox) (inputClass : InputClass) :
    mailbox.drainPendingInputs.1.filter (·.inClass inputClass) = mailbox.queue inputClass ∧
      mailbox.drainPendingInputs.2.queue inputClass = [] := by
  cases inputClass <;>
    simp [drainPendingInputs, queue, filter_append, filter_map, Function.comp_def, inClass]

variable {event : Option AgentEvent}

theorem Takes.queue_eq (takes : Takes mailbox nextTurnId state event after)
    (inputClass : InputClass) :
    mailbox.queue inputClass =
      (mailbox.popped after).filter (·.inClass inputClass) ++ after.queue inputClass := by
  cases takes with
  | steer _ _ first | startSteer _ first
  | startFollowUp _ _ first => cases inputClass <;> simp [popped, queue, first, inClass]
  | daemonObservation _ _ _ first | startObservation _ _ _ first =>
    cases inputClass <;> simp [popped, queue, first, inClass]
  | _ => simp [popped, queue]

theorem Takes.popped_none (takes : Takes mailbox nextTurnId state none after) :
    mailbox.popped after = [] := by
  cases takes <;> simp [popped]

theorem Takes.followUp_popped {content : TurnInput}
    (takes : Takes mailbox nextTurnId state event after)
    (hPopped : .followUp content ∈ mailbox.popped after) :
    mailbox.steer = [] ∧ state = .idle ∧ event = some (.startTurn nextTurnId content) := by
  cases takes with
  | startFollowUp _ noSteer first =>
    simp only [popped, first, lost_self, lost_cons, map_nil, map_cons,
      nil_append, append_nil, mem_singleton, followUp.injEq] at hPopped
    exact ⟨noSteer, rfl, by rw [hPopped]⟩
  | steer _ _ first | startSteer _ first | daemonObservation _ _ _ first
  | startObservation _ _ _ first => simp [popped, first] at hPopped
  | _ => simp [popped] at hPopped

/-- The agreement of `nextEvent` and `step`: the entries popped are the inputs
among the items emitted, whatever the state. -/
theorem Takes.popped_items {event : AgentEvent} (only : mailbox.OnlyCompletions)
    (takes : Takes mailbox nextTurnId state (some event) after) (next : ActionId) :
    (state.step event next).items.filter TranscriptItem.isInput =
      (mailbox.popped after).flatMap AgentInput.transcriptItems := by
  cases takes with
  | notification _ first =>
    have completion := only event (first ▸ mem_cons_self)
    rw [state.step_quiet_items next (.inl completion)]
    simp [popped]
  | interrupt =>
    rw [state.step_quiet_items next (.inr rfl)]
    simp [popped]
  | steer _ _ first =>
    simp [popped, first, step, onSteer, requestModel, ActionId.takeNext,
      transcriptItems, TurnInput.intoTranscriptItem, isInput]
  | daemonObservation _ _ _ first =>
    simp [popped, first, step, onDaemonObservation, requestModel,
      ActionId.takeNext, transcriptItems, isInput]
  | continueModel =>
    simp [popped, step, onContinueModel, requestModel, ActionId.takeNext]
  | startSteer _ first | startFollowUp _ _ first =>
    simp [popped, first, step, onStartTurn, requestModel,
      ActionId.takeNext, transcriptItems, TurnInput.intoTranscriptItem,
      isInput]
  | startObservation _ _ _ first =>
    simp [popped, first, step, onStartDaemonObservationTurn,
      requestModel, ActionId.takeNext, transcriptItems, isInput]

theorem Takes.popped_accepted {input : AgentInput}
    (takes : Takes mailbox nextTurnId state event after) (hPopped : input ∈ mailbox.popped after)
    (next : ActionId) :
    ∃ taken turnId, event = some taken ∧
      (state.step taken next).items.filter TranscriptItem.isInput = input.transcriptItems ∧
      (state.step taken next).state = .runningModel turnId next := by
  cases takes with
  | steer _ _ first | startSteer _ first | startFollowUp _ _ first | daemonObservation _ _ _ first
  | startObservation _ _ _ first =>
    have same := by simpa [popped, first] using hPopped
    subst same
    exact ⟨_, _, rfl, rfl, rfl⟩
  | _ => simp [popped] at hPopped

end Mailbox

/-- How an input left the mailbox. -/
inductive Departure where
  | emitted (input : AgentInput)
  | returned (input : AgentInput)

def Departure.input : Departure → AgentInput
  | .emitted input | .returned input => input

def Departure.items : Departure → List TranscriptItem
  | .emitted input => input.transcriptItems
  | .returned _ => []

/-- The entries an iteration of `drive` pops from the input queues. -/
def AgentCoreLoop.popped (loop : AgentCoreLoop) : List AgentInput :=
  loop.mailbox.popped loop.driveOnce.1.mailbox

def Moment.enqueuedInput : Moment → List AgentInput
  | .enqueued input => [input]
  | _ => []

def Moment.departures : Moment → List Departure
  | .iterated before => before.popped.map .emitted
  | .drainedPendingInputs inputs => inputs.map .returned
  | _ => []

namespace Trace

def enqueuedInputs (trace : Trace) : List AgentInput := trace.history.flatMap Moment.enqueuedInput

def departures (trace : Trace) : List Departure := trace.history.flatMap Moment.departures

/-- The balance of the account: what came in is what left and what still waits,
and what left by emission is what the transcript shows. -/
structure Balanced (trace : Trace) : Prop where
  only : trace.loop.mailbox.OnlyCompletions
  queues : ∀ inputClass, trace.enqueuedInputs.filter (·.inClass inputClass) =
    (trace.departures.map Departure.input).filter (·.inClass inputClass)
      ++ trace.loop.mailbox.queue inputClass
  items : trace.emittedItems.filter TranscriptItem.isInput = trace.departures.flatMap Departure.items

namespace Balanced

variable {trace : Trace}

section

variable (balanced : trace.Balanced)
include balanced

theorem enqueueInput (input : AgentInput) :
    (trace.enqueueInput input).Balanced where
  only := balanced.only.pushInput input
  queues inputClass := by
    have queue := Mailbox.pushInput_queue trace.loop.mailbox input inputClass
    simp only [Trace.enqueueInput, enqueuedInputs, departures, record_history, record_loop,
      flatMap_append, flatMap_singleton, Moment.enqueuedInput, Moment.departures,
      AgentCoreLoop.enqueueInput, queue, append_nil, filter_append]
    rw [← append_assoc, ← enqueuedInputs, ← departures, balanced.queues inputClass]
  items := by
    rw [enqueueInput_emittedItems, balanced.items]
    simp [Trace.enqueueInput, departures, Moment.departures]

/-- A pass of the loop loses no input and makes none. -/
theorem iterate : trace.iterate.Balanced where
  only := balanced.only.takes trace.takes
  queues inputClass := by
    have queue := trace.takes.queue_eq inputClass
    have hPopped : trace.loop.mailbox.popped trace.iterate.loop.mailbox = trace.loop.popped := rfl
    have inputs : (trace.loop.popped.map Departure.emitted).map Departure.input =
        trace.loop.popped := by
      simp [Function.comp_def, Departure.input]
    have hEnqueued : trace.iterate.enqueuedInputs = trace.enqueuedInputs := by
      simp [Trace.iterate, enqueuedInputs, Moment.enqueuedInput]
    have hDepartures : trace.iterate.departures =
        trace.departures ++ trace.loop.popped.map .emitted := by
      simp [Trace.iterate, departures, Moment.departures]
    rw [hEnqueued, hDepartures, balanced.queues inputClass, queue, hPopped, map_append,
      filter_append, inputs, append_assoc]
  items := by
    have hDepartures : trace.iterate.departures.flatMap Departure.items =
        trace.departures.flatMap Departure.items ++ trace.loop.popped.flatMap transcriptItems := by
      simp [Trace.iterate, departures, Moment.departures, flatMap_map, Departure.items]
    rw [iterate_emittedItems, filter_append, balanced.items, hDepartures]
    congr 1
    have takes := trace.takes
    cases hEvent : trace.loop.nextEvent.1 with
    | none =>
      rw [hEvent] at takes
      have hPopped : trace.loop.popped = [] := takes.popped_none
      simp [transition, hEvent, hPopped, emptyTransition]
    | some =>
      rw [hEvent] at takes
      rw [transition, hEvent]
      exact takes.popped_items balanced.only trace.loop.nextActionId

theorem drainPendingInputs : trace.drainPendingInputs.Balanced where
  only := balanced.only
  queues inputClass := by
    obtain ⟨drained, emptied⟩ := trace.loop.mailbox.drainPendingInputs_queue inputClass
    have hEnqueued : trace.drainPendingInputs.enqueuedInputs = trace.enqueuedInputs := by
      simp [Trace.drainPendingInputs, enqueuedInputs, Moment.enqueuedInput]
    have hDepartures : trace.drainPendingInputs.departures.map Departure.input =
        trace.departures.map Departure.input ++ trace.loop.mailbox.drainPendingInputs.1 := by
      simp [Trace.drainPendingInputs, departures, Moment.departures, Function.comp_def,
        Departure.input, AgentCoreLoop.drainPendingInputs]
    have hQueue : trace.drainPendingInputs.loop.mailbox.queue inputClass = [] := emptied
    rw [hEnqueued, hDepartures, hQueue, filter_append, drained, append_nil]
    exact balanced.queues inputClass
  items := by
    rw [drainPendingInputs_emittedItems, balanced.items]
    simp [Trace.drainPendingInputs, departures, Moment.departures, flatMap_map, Departure.items]

theorem drainActions : trace.drainActions.Balanced where
  only := balanced.only
  queues inputClass := by
    simpa [Trace.drainActions, enqueuedInputs, departures, Moment.enqueuedInput,
      Moment.departures, AgentCoreLoop.drainActions] using balanced.queues inputClass
  items := by
    rw [drainActions_emittedItems, balanced.items]
    simp [Trace.drainActions, departures, Moment.departures]

theorem drainTranscriptItems : trace.drainTranscriptItems.Balanced where
  only := balanced.only
  queues inputClass := by
    simpa [Trace.drainTranscriptItems, enqueuedInputs, departures, Moment.enqueuedInput,
      Moment.departures, AgentCoreLoop.drainTranscriptItems] using balanced.queues inputClass
  items := by
    rw [drainTranscriptItems_emittedItems, balanced.items]
    simp [Trace.drainTranscriptItems, departures, Moment.departures]

end

end Balanced

theorem start_balanced (origin : LoopStart) : (start origin.loop).Balanced where
  only := by simp [start, Mailbox.OnlyCompletions]
  queues inputClass := by
    cases inputClass <;> simp [start, enqueuedInputs, departures, Mailbox.queue]
  items := by simp [start, emittedItems, departures]

theorem run_balanced (origin : LoopStart) (list : List LoopCall) :
    (run origin.loop list).Balanced := by
  refine calls_invariant ?_ ?_ ?_ ?_ ?_ (start_balanced origin)
  · intro trace input _ balanced
    exact balanced.enqueueInput input
  · intro trace balanced
    exact balanced.iterate
  · intro trace balanced
    exact balanced.drainActions
  · intro trace balanced
    exact balanced.drainTranscriptItems
  · intro trace balanced
    exact balanced.drainPendingInputs

/-- In every run each class of inputs comes out in the order it went in, each
entry once: by an item of the transcript, by `drainPendingInputs`, or it still
waits. Every popped entry is accepted, and a follow-up only opens a turn, when no
steer is queued. -/
theorem run_conserves_inputs (origin : LoopStart) (list : List LoopCall) :
    (∀ inputClass, (run origin.loop list).enqueuedInputs.filter (·.inClass inputClass) =
      ((run origin.loop list).departures.map Departure.input).filter (·.inClass inputClass)
        ++ (run origin.loop list).loop.mailbox.queue inputClass) ∧
    (run origin.loop list).emittedItems.filter TranscriptItem.isInput =
      (run origin.loop list).departures.flatMap Departure.items ∧
    (∀ (before : AgentCoreLoop) (input : AgentInput), input ∈ before.popped →
      ∃ event turnId, before.nextEvent.1 = some event ∧
        (before.state.step event before.nextActionId).items.filter TranscriptItem.isInput =
          input.transcriptItems ∧
        before.driveOnce.1.state = .runningModel turnId before.nextActionId) ∧
    (∀ (before : AgentCoreLoop) (content : TurnInput), .followUp content ∈ before.popped →
      before.mailbox.steer = [] ∧
        before.driveOnce.1.transcriptItemOutbox = before.transcriptItemOutbox
          ++ [.turnStarted (TurnId.next before.lastTurnId), content.intoTranscriptItem]) := by
  have balanced := run_balanced origin list
  refine ⟨balanced.queues, balanced.items, ?_, ?_⟩
  · intro before input hPopped
    have takes := (start before).takes
    obtain ⟨event, turnId, hEvent, hItems, hState⟩ :=
      takes.popped_accepted hPopped before.nextActionId
    refine ⟨event, turnId, hEvent, hItems, ?_⟩
    have hNext : before.nextEvent = (some event, before.nextEvent.2) := by
      rw [← hEvent]
      rfl
    rw [AgentCoreLoop.driveOnce_of_some hNext]
    exact hState
  · intro before content hPopped
    obtain ⟨noSteer, idle, hEvent⟩ := (start before).takes.followUp_popped hPopped
    have hNext : before.nextEvent =
        (some (.startTurn (TurnId.next before.lastTurnId) content), before.nextEvent.2) :=
      Prod.ext hEvent rfl
    have idle : before.state = .idle := idle
    refine ⟨noSteer, ?_⟩
    rw [AgentCoreLoop.driveOnce_of_some hNext, idle]
    rfl

end Trace

end PiRelay.AgentCore
