import PiRelay.AgentCore.ToolBatch

/-! Runs of the loop while a tool batch is out. Completions come in any order,
among stale and foreign ones, and `drive` is called at any point; the buffer of
the events processed so far determines what has been emitted and when the batch
is over. -/
namespace PiRelay.AgentCore

open AgentVocab
open List hiding count
open Library.ReorderBuffer

/-- The completion that a call put among the notifications. -/
def Moment.completion : Moment → Option AgentEvent
  | .enqueued input => input.completion
  | _ => none

namespace Trace

/-- The completions delivered in the run, in arrival order. -/
def delivered (trace : Trace) : List AgentEvent := trace.history.filterMap Moment.completion

theorem drive_delivered (trace : Trace) : trace.drive.delivered = trace.delivered := by
  refine driveLoop.run_invariant (motive := fun final => final.delivered = trace.delivered) ?_ rfl
  intro final same
  rw [← same]
  simp [driveLoop, iterate, delivered, Moment.completion]

/-- The buffer of a batch after the events processed so far. -/
def slots (trace : Trace) (turnId : TurnId) (tools : List RunningTool) :
    List (Option ToolResultMessage) :=
  putAll (List.replicate tools.length none) (trace.events.filterMap (·.slot turnId tools))

end Trace

open Trace

/-- What holds of a run for the whole time of a batch: nobody interrupts it, the
completions are processed in arrival order, and exactly the released results have
been emitted. -/
structure Watched (turnId : TurnId) (tools : List RunningTool) (origin : AgentCoreLoop)
    (trace : Trace) : Prop where
  quiet : trace.loop.mailbox.interruptRequested = false
  only : trace.loop.mailbox.OnlyCompletions
  order : trace.events ++ trace.loop.mailbox.notifications =
    origin.mailbox.notifications ++ trace.delivered
  items : trace.emittedItems = origin.transcriptItemOutbox
    ++ (released (trace.slots turnId tools)).map .toolResult

structure Collecting (turnId : TurnId) (tools : List RunningTool) (origin : AgentCoreLoop)
    (trace : Trace) : Prop extends Watched turnId tools origin trace where
  incomplete : ¬ Complete (trace.slots turnId tools)
  state : ∃ held index, trace.loop.state = .runningTools turnId held index ∧
    Holds tools (trace.slots turnId tools) held index

structure Finished (turnId : TurnId) (tools : List RunningTool) (origin : AgentCoreLoop)
    (trace : Trace) : Prop extends Watched turnId tools origin trace where
  complete : Complete (trace.slots turnId tools)
  state : trace.loop.state = .readyToContinue turnId

namespace Collecting

variable {turnId : TurnId} {tools : List RunningTool} {origin : AgentCoreLoop} {trace : Trace}

theorem start {calls : List ToolCall} {next : ActionId}
    (hState : origin.state = .runningTools turnId (startTools turnId calls next).tools 0)
    (someCalls : calls ≠ []) (quiet : origin.mailbox.interruptRequested = false)
    (only : origin.mailbox.OnlyCompletions) :
    Collecting turnId (startTools turnId calls next).tools origin (Trace.start origin) := by
  have hSlots : (Trace.start origin).slots turnId (startTools turnId calls next).tools =
      List.replicate calls.length none := by
    simp [slots, Trace.start, events, putAll]
  obtain ⟨call, rest, rfl⟩ := exists_cons_of_ne_nil someCalls
  refine ⟨⟨quiet, only, ?_, ?_⟩, ?_, _, 0, hState, ?_⟩
  · simp [Trace.start, events, delivered]
  · rw [hSlots]
    simp [Trace.start, emittedItems, released, replicate_succ]
  · rw [hSlots]
    have vacant : (List.replicate (call :: rest).length (none : Option ToolResultMessage))[0]? =
      some none := rfl
    exact not_complete_of_none vacant
  · rw [hSlots]
    refine ⟨rfl, ?_, ?_, ?_⟩
    · simp [count, replicate_succ]
    · rw [drop_zero, drop_zero]
      apply eq_replicate_iff.mpr
      refine ⟨by simp, ?_⟩
      intro result hResult
      obtain ⟨_, hTool, rfl⟩ := mem_map.mp hResult
      exact startTools_result _ _ _ hTool
    · simp

section

variable (collecting : Collecting turnId tools origin trace)
include collecting

/-- An input other than an interrupt changes nothing about the batch. -/
theorem enqueueInput {input : AgentInput} (noInterrupt : input ≠ .interrupt) :
    Collecting turnId tools origin (trace.enqueueInput input) := by
  have hSlots : (trace.enqueueInput input).slots turnId tools = trace.slots turnId tools := by
    simp [slots]
  refine ⟨⟨?_, collecting.only.pushInput input, ?_, ?_⟩, ?_, ?_⟩
  · have quiet := collecting.quiet
    cases input with
    | interrupt => exact absurd rfl noInterrupt
    | _ => exact quiet
  · have hDelivered : (trace.enqueueInput input).delivered =
        trace.delivered ++ input.completion.toList := by
      cases hCompletion : input.completion <;>
        simp [Trace.enqueueInput, delivered, Moment.completion, hCompletion]
    have hMailbox : (trace.enqueueInput input).loop.mailbox.notifications =
        trace.loop.mailbox.notifications ++ input.completion.toList :=
      Mailbox.pushInput_notifications _ _
    rw [enqueueInput_events, hMailbox, hDelivered, ← append_assoc, collecting.order, append_assoc]
  · rw [enqueueInput_emittedItems, hSlots]
    exact collecting.items
  · rw [hSlots]
    exact collecting.incomplete
  · rw [hSlots]
    exact collecting.state

theorem drain {moment : Moment} {loop : AgentCoreLoop} (hEvent : moment.event = none)
    (hCompletion : moment.completion = none) (hState : loop.state = trace.loop.state)
    (hQuiet : loop.mailbox.interruptRequested = trace.loop.mailbox.interruptRequested)
    (hNotifications : loop.mailbox.notifications = trace.loop.mailbox.notifications)
    (hItems : (trace.record moment loop).emittedItems = trace.emittedItems) :
    Collecting turnId tools origin (trace.record moment loop) := by
  have hEvents : (trace.record moment loop).events = trace.events := by
    simp [events, hEvent]
  have hDelivered : (trace.record moment loop).delivered = trace.delivered := by
    simp [delivered, hCompletion]
  have hSlots : (trace.record moment loop).slots turnId tools = trace.slots turnId tools := by
    rw [slots, hEvents, slots]
  refine ⟨⟨hQuiet.trans collecting.quiet, ?_, ?_, ?_⟩, ?_, ?_⟩
  · intro event mem
    exact collecting.only event (hNotifications ▸ mem)
  · rw [hEvents, hDelivered, record_loop, hNotifications, collecting.order]
  · rw [hItems, hSlots, collecting.items]
  · rw [hSlots]
    exact collecting.incomplete
  · rw [hSlots, record_loop, hState]
    exact collecting.state

/-- One pass of the loop goes on collecting, or it ends the batch. -/
theorem iterate :
    (Collecting turnId tools origin trace.iterate ∧
      (trace.loop.driveOnce.2 = false → trace.iterate.loop.mailbox.notifications = [])) ∨
    (Finished turnId tools origin trace.iterate ∧ trace.loop.driveOnce.2 = false) := by
  obtain ⟨held, index, hState, holds⟩ := collecting.state
  have takes := trace.takes
  rw [hState] at takes
  obtain ⟨quiet, ⟨hEvent, settled, hAfter⟩ | ⟨event, hEvent, first⟩⟩ :=
    takes.runningTools_cases collecting.quiet
  · left
    have hTransition : trace.transition =
        emptyTransition trace.loop.state trace.loop.nextActionId := by
      simp [transition, hEvent]
    have hEvents : trace.iterate.events = trace.events := by
      simp [hEvent]
    have hSlots : trace.iterate.slots turnId tools = trace.slots turnId tools := by
      rw [slots, hEvents, slots]
    have hDelivered : trace.iterate.delivered = trace.delivered := by
      simp [Trace.iterate, delivered, Moment.completion]
    refine ⟨⟨⟨quiet, collecting.only.takes trace.takes, ?_, ?_⟩, ?_, held, index, ?_, ?_⟩,
      fun _ => hAfter⟩
    · rw [hEvents, hAfter, hDelivered, ← collecting.order, settled]
    · rw [iterate_emittedItems, hTransition, hSlots, collecting.items]
      exact append_nil _
    · rw [hSlots]
      exact collecting.incomplete
    · rw [iterate_loop, hTransition]
      exact hState
    · rw [hSlots]
      exact holds
  · have completion := collecting.only event (first ▸ mem_cons_self)
    have hNext : trace.loop.nextEvent = (some event, trace.loop.nextEvent.2) := Prod.ext hEvent rfl
    have hTransition : trace.transition = trace.loop.state.step event trace.loop.nextActionId := by
      simp [transition, hEvent]
    have advances : Advances turnId tools _ _ _ _ :=
      holds.step collecting.incomplete completion trace.loop.nextActionId
    have hSlots : trace.iterate.slots turnId tools =
        answer turnId tools (trace.slots turnId tools) event := by
      rw [slots, iterate_events, hEvent, Option.toList_some, filterMap_append,
        putAll_append, ← slots, answer]
      cases hSlot : event.slot turnId tools <;> simp [hSlot]
    rw [← hSlots, ← hState, ← hTransition] at advances
    have watched : Watched turnId tools origin trace.iterate := by
      have hDelivered : trace.iterate.delivered = trace.delivered := by
        simp [Trace.iterate, delivered, Moment.completion]
      refine ⟨quiet, collecting.only.takes trace.takes, ?_, ?_⟩
      · rw [iterate_events, hEvent, hDelivered, ← collecting.order, first]
        simp
      · rw [iterate_emittedItems, collecting.items, append_assoc, advances.items]
    by_cases complete : Complete (trace.iterate.slots turnId tools)
    · right
      have hReady := advances.finished complete
      refine ⟨⟨watched, complete, ?_⟩, ?_⟩
      · rw [iterate_loop]
        exact hReady
      · rw [← Bool.not_eq_true, AgentCoreLoop.driveOnce_again_iff hNext, ← hTransition]
        rintro (⟨noItems, _⟩ | notReady)
        · have same := advances.items
          rw [noItems, append_nil] at same
          have counts := congrArg List.length same
          rw [length_map, length_map, length_released, length_released,
            (complete_iff _).mp complete] at counts
          have lengths : (trace.iterate.slots turnId tools).length =
              (trace.slots turnId tools).length := by
            rw [hSlots, answer, length_putAll]
          exact collecting.incomplete ((complete_iff _).mpr (counts.trans lengths))
        · exact notReady turnId hReady
    · left
      obtain ⟨held', index', hState', holds'⟩ := advances.running complete
      refine ⟨⟨watched, complete, held', index', ?_, holds'⟩, ?_⟩
      · rw [iterate_loop]
        exact hState'
      · intro stopped
        have again : trace.loop.driveOnce.2 := by
          rw [AgentCoreLoop.driveOnce_again_iff hNext, ← hTransition, hState']
          exact .inr (fun turnId => by simp)
        rw [again] at stopped
        cases stopped

theorem drive :
    (Collecting turnId tools origin trace.drive ∧
      trace.drive.loop.mailbox.notifications = []) ∨
    Finished turnId tools origin trace.drive := by
  revert collecting
  refine driveLoop.run_induction (motive := fun trace final =>
    Collecting turnId tools origin trace →
      (Collecting turnId tools origin final ∧ final.loop.mailbox.notifications = []) ∨
        Finished turnId tools origin final) ?_ ?_ trace
  · intro trace stopped collecting
    rcases collecting.iterate with ⟨still, settled⟩ | ⟨finished, _⟩
    · exact .inl ⟨still, settled stopped⟩
    · exact .inr finished
  · intro trace final again rest collecting
    rcases collecting.iterate with ⟨still, _⟩ | ⟨_, stopped⟩
    · exact rest still
    · exact absurd (stopped.symm.trans again) Bool.false_ne_true

theorem call {call : LoopCall} (noInterrupt : call ≠ .enqueueInput .interrupt) :
    Collecting turnId tools origin (trace.call call) ∨
      Finished turnId tools origin (trace.call call) := by
  cases call with
  | enqueueInput => exact .inl (collecting.enqueueInput (fun same => noInterrupt (same ▸ rfl)))
  | drive =>
    rcases collecting.drive with ⟨still, _⟩ | finished
    · exact .inl still
    · exact .inr finished
  | drainActions =>
    exact .inl (collecting.drain rfl rfl rfl rfl rfl trace.drainActions_emittedItems)
  | drainTranscriptItems =>
    exact .inl (collecting.drain rfl rfl rfl rfl rfl trace.drainTranscriptItems_emittedItems)
  | drainPendingInputs =>
    exact .inl (collecting.drain rfl rfl rfl rfl rfl trace.drainPendingInputs_emittedItems)

end

end Collecting

/-- The result a completion brings to one request: the ids, the call and the tool
must all be the request's own. -/
def AgentEvent.answerTo (turnId : TurnId) (tool : RunningTool) :
    AgentEvent → Option ToolResultMessage
  | .toolCompleted actionId resultTurnId result =>
    if actionId = tool.actionId ∧ resultTurnId = turnId ∧ result.key = tool.call.key then
      some result
    else none
  | _ => none

/-- The first matching result among the processed events. -/
def Trace.answerTo (trace : Trace) (turnId : TurnId) (tool : RunningTool) :
    Option ToolResultMessage :=
  trace.events.findSome? (·.answerTo turnId tool)

section Distinct

variable {turnId : TurnId} {tools : List RunningTool}

theorem AgentEvent.answerTo_eq_some {event : AgentEvent} {tool : RunningTool}
    {result : ToolResultMessage} (hAnswer : event.answerTo turnId tool = some result) :
    event = .toolCompleted tool.actionId turnId result ∧ result.key = tool.call.key := by
  cases event with
  | toolCompleted =>
    rw [answerTo] at hAnswer
    split at hAnswer
    · rename_i matching
      obtain ⟨rfl, rfl, hKey⟩ := matching
      cases hAnswer
      exact ⟨rfl, hKey⟩
    · cases hAnswer
  | _ => cases hAnswer

section

variable (distinct : (tools.map (·.call.key)).Nodup)
include distinct

theorem AgentEvent.slot_eq_some_iff {event : AgentEvent} {position : Nat}
    {result : ToolResultMessage} :
    event.slot turnId tools = some (position, result) ↔
      ∃ tool, tools[position]? = some tool ∧ event.answerTo turnId tool = some result := by
  constructor
  · intro hSlot
    obtain ⟨tool, hTool, rfl, hPosition⟩ := slot_eq_some hSlot
    refine ⟨tool, hTool, ?_⟩
    obtain ⟨inRange, answered, _⟩ := findIdx?_eq_some_iff_getElem.mp hPosition
    have hSame : tools[position] = tool := by
      rw [getElem?_eq_getElem inRange] at hTool
      exact Option.some.inj hTool
    have hKey : result.key = tool.call.key := hSame ▸ RunningTool.answeredBy_iff.mp answered
    simp [answerTo, hKey]
  · rintro ⟨tool, hTool, hAnswer⟩
    obtain ⟨rfl, hKey⟩ := answerTo_eq_some hAnswer
    simp [slot, findIdx?_answeredBy distinct hTool hKey, hTool]

theorem findSome?_slot {position : Nat} {tool : RunningTool} (hTool : tools[position]? = some tool)
    (events : List AgentEvent) :
    ((events.filterMap (·.slot turnId tools)).findSome? fun answer =>
        if answer.1 = position then some answer.2 else none) =
      events.findSome? (·.answerTo turnId tool) := by
  induction events with
  | nil => rfl
  | cons event _ ih =>
    rw [findSome?_cons, ← ih]
    cases hAnswer : event.answerTo turnId tool with
    | some result =>
      have hSlot : event.slot turnId tools = some (position, result) :=
        (AgentEvent.slot_eq_some_iff distinct).mpr ⟨tool, hTool, hAnswer⟩
      simp [hSlot]
    | none =>
      cases hSlot : event.slot turnId tools with
      | none => simp [hSlot]
      | some found =>
        have elsewhere : found.1 ≠ position := by
          rintro rfl
          obtain ⟨other, hOther, answered⟩ := (AgentEvent.slot_eq_some_iff distinct).mp hSlot
          cases hTool.symm.trans hOther
          rw [hAnswer] at answered
          cases answered
        simp [hSlot, elsewhere]

theorem Trace.slots_eq (trace : Trace) :
    trace.slots turnId tools = tools.map (trace.answerTo turnId) := by
  apply ext_getElem?
  intro position
  rw [slots, getElem?_putAll, getElem?_map]
  cases hTool : tools[position]? with
  | none =>
    have outside := getElem?_eq_none_iff.mp hTool
    simp [outside]
  | some =>
    have inside := (List.getElem?_eq_some_iff.mp hTool).1
    rw [findSome?_slot distinct hTool]
    simp [inside, answerTo]

end

end Distinct

section Runs

variable {turnId : TurnId} {tools : List RunningTool} {origin : AgentCoreLoop}

theorem Trace.calls_complete {trace : Trace} (complete : Complete (trace.slots turnId tools))
    (list : List LoopCall) : Complete ((trace.calls list).slots turnId tools) := by
  refine calls_invariant (motive := fun trace => Complete (trace.slots turnId tools))
    ?_ ?_ ?_ ?_ ?_ complete
  · intro trace input _ complete
    rwa [slots, enqueueInput_events]
  · intro trace complete
    rw [slots, iterate_events, filterMap_append, putAll_append, ← slots, complete.putAll_eq]
    exact complete
  · intro trace complete
    rwa [slots, drainActions_events]
  · intro trace complete
    rwa [slots, drainTranscriptItems_events]
  · intro trace complete
    rwa [slots, drainPendingInputs_events]

theorem Collecting.calls {trace : Trace} (collecting : Collecting turnId tools origin trace)
    {list : List LoopCall} (noInterrupt : .enqueueInput .interrupt ∉ list)
    (incomplete : ¬ Complete ((trace.calls list).slots turnId tools)) :
    Collecting turnId tools origin (trace.calls list) := by
  induction list generalizing trace with
  | nil => exact collecting
  | cons call rest ih =>
    have notHere : call ≠ .enqueueInput .interrupt := by
      rintro rfl
      exact noInterrupt (.head _)
    have notLater : .enqueueInput .interrupt ∉ rest := fun mem => noInterrupt (.tail _ mem)
    rcases collecting.call notHere with still | finished
    · exact ih still notLater incomplete
    · exact absurd (calls_complete finished.complete rest) incomplete

end Runs

/-- Every call of the batch has a matching result among the processed events. -/
def Trace.Answered (trace : Trace) (turnId : TurnId) (tools : List RunningTool) : Prop :=
  ∀ tool ∈ tools, (trace.answerTo turnId tool).isSome = true

instance (trace : Trace) (turnId : TurnId) (tools : List RunningTool) :
    Decidable (trace.Answered turnId tools) :=
  inferInstanceAs (Decidable (∀ tool ∈ tools, (trace.answerTo turnId tool).isSome = true))

/-- A batch of distinct calls, driven at arbitrary points while completions of any
kind arrive in any order. As long as a result is missing, the loop waits and has
emitted the first matching results of the longest answered prefix of the calls.
The call that processes the last missing result leaves the loop ready to continue
with all results emitted in call order. A drive that does not get there has
processed everything delivered. -/
theorem batch_results_in_call_order (origin : AgentCoreLoop) (turnId : TurnId)
    (calls : List ToolCall) (next : ActionId) (list : List LoopCall)
    (hState : origin.state = .runningTools turnId (startTools turnId calls next).tools 0)
    (someCalls : calls ≠ []) (distinct : (calls.map ToolCall.key).Nodup)
    (quiet : origin.mailbox.interruptRequested = false)
    (only : origin.mailbox.OnlyCompletions) (noInterrupt : .enqueueInput .interrupt ∉ list)
    (missing : ¬ (Trace.run origin list).Answered turnId (startTools turnId calls next).tools) :
    (∃ held index, (Trace.run origin list).loop.state = .runningTools turnId held index) ∧
    (Trace.run origin list).emittedItems = origin.transcriptItemOutbox
      ++ (released ((startTools turnId calls next).tools.map
        ((Trace.run origin list).answerTo turnId))).map .toolResult ∧
    (Trace.run origin list).events ++ (Trace.run origin list).loop.mailbox.notifications =
      origin.mailbox.notifications ++ (Trace.run origin list).delivered ∧
    (∀ call, call ≠ .enqueueInput .interrupt →
      ((Trace.run origin list).call call).Answered turnId (startTools turnId calls next).tools →
      ((Trace.run origin list).call call).loop.state = .readyToContinue turnId ∧
      ((Trace.run origin list).call call).emittedItems = origin.transcriptItemOutbox
        ++ ((startTools turnId calls next).tools.filterMap
          (((Trace.run origin list).call call).answerTo turnId)).map .toolResult ∧
      ((Trace.run origin list).call call).events
          ++ ((Trace.run origin list).call call).loop.mailbox.notifications =
        origin.mailbox.notifications ++ ((Trace.run origin list).call call).delivered) ∧
    (((Trace.run origin list).call .drive).Answered turnId (startTools turnId calls next).tools ∨
      ((Trace.run origin list).call .drive).loop.mailbox.notifications = []) := by
  have distinctTools : ((startTools turnId calls next).tools.map (·.call.key)).Nodup := by
    have keys : (startTools turnId calls next).tools.map (·.call.key) =
        ((startTools turnId calls next).tools.map RunningTool.call).map ToolCall.key := by
      rw [List.map_map]
      rfl
    rwa [keys, startTools_map_call]
  have started := Collecting.start hState someCalls quiet only
  generalize (startTools turnId calls next).tools = tools at *
  have answered_iff : ∀ trace : Trace,
      trace.Answered turnId tools ↔ Complete (trace.slots turnId tools) := by
    intro trace
    rw [slots_eq distinctTools, Complete, forall_mem_map, Trace.Answered]
  have collecting := started.calls noInterrupt (mt (answered_iff _).mpr missing)
  refine ⟨?_, ?_, collecting.order, ?_, ?_⟩
  · obtain ⟨held, index, hRunning, _⟩ := collecting.state
    exact ⟨held, index, hRunning⟩
  · rw [← slots_eq distinctTools]
    exact collecting.items
  · intro call notInterrupt answered
    rcases collecting.call notInterrupt with still | finished
    · exact absurd ((answered_iff _).mp answered) still.incomplete
    · refine ⟨finished.state, ?_, finished.order⟩
      have items := finished.items
      rwa [released_of_complete finished.complete, slots_eq distinctTools,
        filterMap_map] at items
  · rcases collecting.drive with ⟨_, settled⟩ | finished
    · exact .inr settled
    · exact .inl ((answered_iff _).mpr finished.complete)

def twoRequested : AgentCoreLoop :=
  { AgentCoreLoop.resumeReadyToContinue 1 4 with
    state := .runningTools 1 (startTools 1 [⟨"a", "bash", ""⟩, ⟨"b", "bash", ""⟩] 2).tools 0 }

/-- The second result comes first, and again; the first one releases both. -/
theorem two_results_in_call_order :
    ((Trace.run twoRequested
        [.enqueueInput (.toolCompleted 3 1 ⟨"b", "bash", "early", .success⟩), .drive,
          .enqueueInput (.toolCompleted 3 1 ⟨"b", "bash", "again", .success⟩),
          .enqueueInput (.toolCompleted 2 1 ⟨"a", "bash", "late", .success⟩)]).call
            .drive).emittedItems =
      [.toolResult ⟨"a", "bash", "late", .success⟩, .toolResult ⟨"b", "bash", "early", .success⟩] :=
  ((batch_results_in_call_order twoRequested 1 [⟨"a", "bash", ""⟩, ⟨"b", "bash", ""⟩] 2 _
    rfl (by decide) (by decide) rfl (by simp [twoRequested, AgentCoreLoop.resumeReadyToContinue,
      Mailbox.OnlyCompletions]) (by decide) (by decide)).2.2.2.1 .drive (by decide)
        (by decide)).2.1.trans (by decide)

end PiRelay.AgentCore
