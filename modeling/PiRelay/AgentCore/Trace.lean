import PiRelay.AgentCore.Loop

/-! Runs of the live loop: every sequence of calls to its public operations. A
trace keeps, beside the loop, what each call returned and the loop before every
iteration of `drive`. The loop of a trace is the loop the calls alone produce;
the rest is only watched. -/
namespace PiRelay.AgentCore

open AgentVocab List
open Library (Loop)

inductive LoopCall where
  | enqueueInput (input : AgentInput)
  | drive
  | drainActions
  | drainTranscriptItems
  | drainPendingInputs
deriving DecidableEq

def AgentCoreLoop.call (loop : AgentCoreLoop) : LoopCall → AgentCoreLoop
  | .enqueueInput input => loop.enqueueInput input
  | .drive => loop.drive
  | .drainActions => loop.drainActions.2
  | .drainTranscriptItems => loop.drainTranscriptItems.2
  | .drainPendingInputs => loop.drainPendingInputs.2

/-- The four ways a live loop comes into being. -/
inductive LoopStart where
  | new
  | resumeAt (lastTurnId : TurnId) (nextActionId : ActionId)
  | resumeRunningModel (turnId : TurnId) (actionId : ActionId)
  | resumeReadyToContinue (turnId : TurnId) (nextActionId : ActionId)

def LoopStart.loop : LoopStart → AgentCoreLoop
  | .new => .new
  | .resumeAt lastTurnId nextActionId => .resumeAt lastTurnId nextActionId
  | .resumeRunningModel turnId actionId => .resumeRunningModel turnId actionId
  | .resumeReadyToContinue turnId nextActionId => .resumeReadyToContinue turnId nextActionId

@[simp] theorem LoopStart.loop_mailbox (start : LoopStart) : start.loop.mailbox = {} := by
  cases start <;> rfl

@[simp] theorem LoopStart.loop_transcriptItemOutbox (start : LoopStart) :
    start.loop.transcriptItemOutbox = [] := by
  cases start <;> rfl

@[simp] theorem LoopStart.loop_actionOutbox (start : LoopStart) : start.loop.actionOutbox = [] := by
  cases start <;> rfl

inductive Moment where
  | enqueued (input : AgentInput)
  | iterated (before : AgentCoreLoop)
  | drainedActions (actions : List AgentAction)
  | drainedTranscriptItems (items : List TranscriptItem)
  | drainedPendingInputs (inputs : List AgentInput)

structure Trace where
  loop : AgentCoreLoop
  history : List Moment

namespace Trace

/-- A run that has not made any call yet. -/
def start (loop : AgentCoreLoop) : Trace := { loop, history := [] }

def record (trace : Trace) (moment : Moment) (loop : AgentCoreLoop) : Trace where
  loop := loop
  history := trace.history ++ [moment]

variable (trace : Trace)

@[simp] theorem record_loop (moment : Moment) (loop : AgentCoreLoop) :
    (trace.record moment loop).loop = loop := rfl

@[simp] theorem record_history (moment : Moment) (loop : AgentCoreLoop) :
    (trace.record moment loop).history = trace.history ++ [moment] := rfl

variable (trace : Trace)

def enqueueInput (input : AgentInput) : Trace :=
  trace.record (.enqueued input) (trace.loop.enqueueInput input)

def iterate : Trace :=
  trace.record (.iterated trace.loop) trace.loop.driveOnce.1

def drainActions : Trace :=
  trace.record (.drainedActions trace.loop.drainActions.1) trace.loop.drainActions.2

def drainTranscriptItems : Trace :=
  trace.record (.drainedTranscriptItems trace.loop.drainTranscriptItems.1)
    trace.loop.drainTranscriptItems.2

def drainPendingInputs : Trace :=
  trace.record (.drainedPendingInputs trace.loop.drainPendingInputs.1)
    trace.loop.drainPendingInputs.2

def driveLoop : Loop Trace where
  body trace := (trace.iterate, trace.loop.driveOnce.2)
  measure trace := trace.loop.pending
  decreases trace again := AgentCoreLoop.pending_driveOnce trace.loop again

def drive : Trace := driveLoop.run trace

def call : LoopCall → Trace
  | .enqueueInput input => trace.enqueueInput input
  | .drive => trace.drive
  | .drainActions => trace.drainActions
  | .drainTranscriptItems => trace.drainTranscriptItems
  | .drainPendingInputs => trace.drainPendingInputs

def calls (list : List LoopCall) : Trace := list.foldl call trace

def run (loop : AgentCoreLoop) (list : List LoopCall) : Trace := (start loop).calls list

theorem drive_loop : trace.drive.loop = trace.loop.drive := by
  apply driveLoop.run_map AgentCoreLoop.driveLoop Trace.loop
  intro trace
  rfl

theorem call_loop (call : LoopCall) : (trace.call call).loop = trace.loop.call call := by
  cases call with
  | drive => exact trace.drive_loop
  | _ => rfl

theorem run_loop (loop : AgentCoreLoop) (list : List LoopCall) :
    (run loop list).loop = list.foldl AgentCoreLoop.call loop := by
  suffices ∀ trace : Trace, (trace.calls list).loop = list.foldl AgentCoreLoop.call trace.loop by
    exact this (start loop)
  intro trace
  induction list generalizing trace with
  | nil => rfl
  | cons call _ ih =>
    rw [calls, foldl_cons, foldl_cons, ← call_loop]
    exact ih (trace.call call)

theorem calls_append (first second : List LoopCall) :
    trace.calls (first ++ second) = (trace.calls first).calls second := by
  simp [calls]

/-- The rule of invariants over runs: an invariant of the single iteration and
of the calls that only move data holds after every run. The inputs are limited
to those the run really enqueues. -/
theorem calls_invariant {motive : Trace → Prop} {list : List LoopCall}
    (enqueued : ∀ trace input, .enqueueInput input ∈ list → motive trace →
      motive (trace.enqueueInput input)) (iterated : ∀ trace, motive trace → motive trace.iterate)
    (drainedActions : ∀ trace, motive trace → motive trace.drainActions)
    (drainedItems : ∀ trace, motive trace → motive trace.drainTranscriptItems)
    (drainedInputs : ∀ trace, motive trace → motive trace.drainPendingInputs)
    {trace : Trace} (initially : motive trace) : motive (trace.calls list) := by
  induction list generalizing trace with
  | nil => exact initially
  | cons call _ ih =>
    refine ih (fun trace input hInput => enqueued trace input (.tail _ hInput)) ?_
    cases call with
    | enqueueInput input => exact enqueued trace input (.head _) initially
    | drive => exact driveLoop.run_invariant iterated initially
    | drainActions => exact drainedActions trace initially
    | drainTranscriptItems => exact drainedItems trace initially
    | drainPendingInputs => exact drainedInputs trace initially

/-- Every point of every run: after any call, and between any two iterations of
a `drive`. -/
inductive Reached (origin : AgentCoreLoop) : Trace → Prop where
  | start : Reached origin (start origin)
  | enqueueInput {trace : Trace} (prior : Reached origin trace) (input : AgentInput) :
      Reached origin (trace.enqueueInput input)
  | iterate {trace : Trace} (prior : Reached origin trace) : Reached origin trace.iterate
  | drainActions {trace : Trace} (prior : Reached origin trace) : Reached origin trace.drainActions
  | drainTranscriptItems {trace : Trace} (prior : Reached origin trace) :
      Reached origin trace.drainTranscriptItems
  | drainPendingInputs {trace : Trace} (prior : Reached origin trace) :
      Reached origin trace.drainPendingInputs

/-- Every list of calls is a run from its origin. -/
theorem run_reached (origin : AgentCoreLoop) (list : List LoopCall) :
    Reached origin (run origin list) := by
  have started : Reached origin (start origin) := .start
  refine calls_invariant ?_ ?_ ?_ ?_ ?_ started
  · intro trace input _ prior
    exact prior.enqueueInput input
  · intro trace prior
    exact prior.iterate
  · intro trace prior
    exact prior.drainActions
  · intro trace prior
    exact prior.drainTranscriptItems
  · intro trace prior
    exact prior.drainPendingInputs

end Trace

def Moment.takenItems : Moment → List TranscriptItem
  | .drainedTranscriptItems items => items
  | _ => []

def Moment.takenActions : Moment → List AgentAction
  | .drainedActions actions => actions
  | _ => []

/-- The event an iteration of `drive` took from the mailbox. -/
def Moment.event : Moment → Option AgentEvent
  | .iterated before => before.nextEvent.1
  | _ => none

namespace Trace

/-- All transcript items ever put in the outbox: those drained, then those still
there. -/
def emittedItems (trace : Trace) : List TranscriptItem :=
  trace.history.flatMap Moment.takenItems ++ trace.loop.transcriptItemOutbox

def emittedActions (trace : Trace) : List AgentAction :=
  trace.history.flatMap Moment.takenActions ++ trace.loop.actionOutbox

/-- The events the state machine has been given. -/
def events (trace : Trace) : List AgentEvent := trace.history.filterMap Moment.event

def transition (trace : Trace) : Transition :=
  match trace.loop.nextEvent.1 with
  | none => emptyTransition trace.loop.state trace.loop.nextActionId
  | some event => trace.loop.state.step event trace.loop.nextActionId

variable (trace : Trace)

theorem iterate_loop :
    trace.iterate.loop = trace.loop.apply trace.loop.nextEvent.2 trace.transition := by
  rcases hNext : trace.loop.nextEvent with ⟨_ | event, mailbox⟩
  · have hOnce := AgentCoreLoop.driveOnce_of_none hNext
    simp [iterate, hOnce, transition, hNext, AgentCoreLoop.apply, emptyTransition, startedTurnId]
  · have hOnce := AgentCoreLoop.driveOnce_of_some hNext
    simp [iterate, hOnce, transition, hNext]

@[simp] theorem enqueueInput_emittedItems (input : AgentInput) :
    (trace.enqueueInput input).emittedItems = trace.emittedItems := by
  simp [enqueueInput, emittedItems, Moment.takenItems, AgentCoreLoop.enqueueInput]

@[simp] theorem drainActions_emittedItems :
    trace.drainActions.emittedItems = trace.emittedItems := by
  simp [drainActions, emittedItems, Moment.takenItems, AgentCoreLoop.drainActions]

@[simp] theorem drainTranscriptItems_emittedItems :
    trace.drainTranscriptItems.emittedItems = trace.emittedItems := by
  simp [drainTranscriptItems, emittedItems, Moment.takenItems, AgentCoreLoop.drainTranscriptItems]

@[simp] theorem drainPendingInputs_emittedItems :
    trace.drainPendingInputs.emittedItems = trace.emittedItems := by
  simp [drainPendingInputs, emittedItems, Moment.takenItems, AgentCoreLoop.drainPendingInputs]

@[simp] theorem iterate_emittedItems :
    trace.iterate.emittedItems = trace.emittedItems ++ trace.transition.items := by
  rw [emittedItems, iterate_loop]
  simp [iterate, emittedItems, Moment.takenItems, AgentCoreLoop.apply]

@[simp] theorem enqueueInput_emittedActions (input : AgentInput) :
    (trace.enqueueInput input).emittedActions = trace.emittedActions := by
  simp [enqueueInput, emittedActions, Moment.takenActions, AgentCoreLoop.enqueueInput]

@[simp] theorem drainActions_emittedActions :
    trace.drainActions.emittedActions = trace.emittedActions := by
  simp [drainActions, emittedActions, Moment.takenActions, AgentCoreLoop.drainActions]

@[simp] theorem drainTranscriptItems_emittedActions :
    trace.drainTranscriptItems.emittedActions = trace.emittedActions := by
  simp [drainTranscriptItems, emittedActions, Moment.takenActions,
    AgentCoreLoop.drainTranscriptItems]

@[simp] theorem drainPendingInputs_emittedActions :
    trace.drainPendingInputs.emittedActions = trace.emittedActions := by
  simp [drainPendingInputs, emittedActions, Moment.takenActions, AgentCoreLoop.drainPendingInputs]

@[simp] theorem iterate_emittedActions :
    trace.iterate.emittedActions = trace.emittedActions ++ trace.transition.actions := by
  rw [emittedActions, iterate_loop]
  simp [iterate, emittedActions, Moment.takenActions, AgentCoreLoop.apply]

@[simp] theorem enqueueInput_events (input : AgentInput) :
    (trace.enqueueInput input).events = trace.events := by
  simp [enqueueInput, events, Moment.event]

@[simp] theorem drainActions_events : trace.drainActions.events = trace.events := by
  simp [drainActions, events, Moment.event]

@[simp] theorem drainTranscriptItems_events : trace.drainTranscriptItems.events = trace.events := by
  simp [drainTranscriptItems, events, Moment.event]

@[simp] theorem drainPendingInputs_events : trace.drainPendingInputs.events = trace.events := by
  simp [drainPendingInputs, events, Moment.event]

@[simp] theorem iterate_events :
    trace.iterate.events = trace.events ++ trace.loop.nextEvent.1.toList := by
  cases hEvent : trace.loop.nextEvent.1 <;> simp [iterate, events, Moment.event, hEvent]

theorem transition_cases :
    trace.transition = emptyTransition trace.loop.state trace.loop.nextActionId ∨
      ∃ event, trace.loop.nextEvent.1 = some event ∧
        AgentState.Fires trace.loop.nextActionId trace.loop.state event trace.transition := by
  cases hEvent : trace.loop.nextEvent.1 with
  | none => exact .inl (by simp [transition, hEvent])
  | some event =>
    rw [transition, hEvent]
    rcases AgentState.step_cases trace.loop.state event trace.loop.nextActionId with
      ignored | fires
    · exact .inl ignored
    · exact .inr ⟨event, rfl, fires⟩

theorem takes :
    Mailbox.Takes trace.loop.mailbox (TurnId.next trace.loop.lastTurnId) trace.loop.state
      trace.loop.nextEvent.1 trace.iterate.loop.mailbox := by
  rw [iterate_loop]
  exact AgentCoreLoop.takes_of_nextEvent rfl

end Trace

end PiRelay.AgentCore
