import Mathlib.Data.List.Nodup
import PiRelay.AgentCore.BatchRun

/-! Whether a batch ends once all its requests are answered. A completion is
placed by call id and tool name before its action id is looked at, while requests
go out one for each position. The two agree exactly when no two calls of the
message share id and name. -/
namespace PiRelay.AgentCore

open AgentVocab List Option
open Library.ReorderBuffer Trace

def AgentState.isRunningTools : AgentState → Bool
  | .runningTools _ _ _ => true
  | _ => false

def AgentEvent.isToolCompletion : AgentEvent → Bool
  | .toolCompleted _ _ _ => true
  | _ => false

/-- No model completion is on its way. -/
def ToolNotified (loop : AgentCoreLoop) : Prop :=
  ∀ event ∈ loop.mailbox.notifications, event.isToolCompletion = true

/-- The calls of a list enqueue no model completion. -/
def OnlyToolCompletions (list : List LoopCall) : Prop :=
  ∀ input, .enqueueInput input ∈ list → ∀ event ∈ input.completion, event.isToolCompletion = true

namespace ToolNotified

variable {trace : Trace}

section

variable (notified : ToolNotified trace.loop)
include notified

theorem enqueueInput {input : AgentInput}
    (only : ∀ event ∈ input.completion, event.isToolCompletion) :
    ToolNotified (trace.enqueueInput input).loop := by
  intro event mem
  have hMailbox : (trace.enqueueInput input).loop.mailbox.notifications =
      trace.loop.mailbox.notifications ++ input.completion.toList :=
    Mailbox.pushInput_notifications _ _
  rw [hMailbox] at mem
  rcases mem_append.mp mem with old | new
  · exact notified event old
  · exact only event (mem_toList.mp new)

theorem iterate : ToolNotified trace.iterate.loop :=
  fun event mem => notified event (trace.takes.notifications_subset mem)

theorem calls {list : List LoopCall} (only : OnlyToolCompletions list) :
    ToolNotified (trace.calls list).loop := by
  refine calls_invariant (motive := fun trace => ToolNotified trace.loop) ?_ ?_ ?_ ?_ ?_ notified
  · intro trace input mem notified
    exact notified.enqueueInput (only input mem)
  · intro trace notified
    exact notified.iterate
  all_goals exact fun _ notified => notified

end

end ToolNotified

/-- Outside a batch, with no model completion on its way, no batch can start. -/
structure NoBatch (loop : AgentCoreLoop) : Prop where
  outside : loop.state.isRunningTools = false
  notified : ToolNotified loop

namespace NoBatch

variable {trace : Trace}

theorem iterate (noBatch : NoBatch trace.loop) : NoBatch trace.iterate.loop := by
  refine ⟨?_, noBatch.notified.iterate⟩
  have takes := trace.takes
  have outside := noBatch.outside
  rw [iterate_loop]
  rcases trace.transition_cases with ignored | ⟨event, hEvent, fires⟩
  · rw [ignored]
    exact outside
  · rw [hEvent] at takes
    generalize trace.loop.state = state at fires outside takes
    generalize trace.transition = transition at fires
    cases fires with
    | startTools => cases noBatch.notified _ (takes.completion_mem rfl)
    | recordResult => cases outside
    | _ => rfl

theorem calls (noBatch : NoBatch trace.loop) {list : List LoopCall}
    (only : OnlyToolCompletions list) : NoBatch (trace.calls list).loop := by
  refine calls_invariant (motive := fun trace => NoBatch trace.loop) ?_ ?_ ?_ ?_ ?_ noBatch
  · intro trace input mem noBatch
    exact ⟨noBatch.outside, noBatch.notified.enqueueInput (only input mem)⟩
  · intro trace noBatch
    exact noBatch.iterate
  all_goals exact fun _ noBatch => ⟨noBatch.outside, noBatch.notified⟩

end NoBatch

/-- The answer a runner gives to a tool request: the ids, the call id and the tool
name are copied from the request. -/
def AgentAction.answer (outcome : ActionId → String × ToolResultStatus) :
    AgentAction → Option AgentInput
  | .requestTool actionId turnId toolCall => some (.toolCompleted actionId turnId
      { toolCallId := toolCall.id
        toolName := toolCall.toolName
        output := (outcome actionId).1
        status := (outcome actionId).2 })
  | .requestModel _ _ | .cancelTurn _ => none

def LoopCall.completionInput : LoopCall → Option AgentInput
  | .enqueueInput input => if input.completion.isSome then some input else none
  | _ => none

section Answers

variable {turnId : TurnId} {tools : List RunningTool} {origin : AgentCoreLoop}

theorem Collecting.calls_or_noBatch {trace : Trace}
    (collecting : Collecting turnId tools origin trace) (notified : ToolNotified trace.loop)
    {list : List LoopCall} (noInterrupt : .enqueueInput .interrupt ∉ list)
    (only : OnlyToolCompletions list) :
    Collecting turnId tools origin (trace.calls list) ∨ NoBatch (trace.calls list).loop := by
  induction list generalizing trace with
  | nil => exact .inl collecting
  | cons call rest ih =>
    have notHere : call ≠ .enqueueInput .interrupt := by
      rintro rfl
      exact noInterrupt (.head _)
    have onlyRest : OnlyToolCompletions rest := fun input mem => only input (.tail _ mem)
    have onlyHere : OnlyToolCompletions [call] := by
      intro input mem
      exact only input (mem_singleton.mp mem ▸ mem_cons_self)
    have notified' := notified.calls onlyHere
    rcases collecting.call notHere with still | finished
    · exact ih still notified' (fun mem => noInterrupt (.tail _ mem)) onlyRest
    · have noBatch : NoBatch (trace.call call).loop := ⟨by rw [finished.state]; rfl, notified'⟩
      exact .inr (noBatch.calls onlyRest)

section

variable (turnId : TurnId) {first second : Nat} (before : first < second)
  {shadowing shadowed : RunningTool} (hFirst : tools[first]? = some shadowing)
  (hSecond : tools[second]? = some shadowed) (sameKey : shadowing.call.key = shadowed.call.key)
include before hFirst hSecond sameKey

/-- A slot that shares its key with an earlier one is never found. -/
theorem AgentEvent.slot_ne_of_shadowed (event : AgentEvent) (result : ToolResultMessage) :
    event.slot turnId tools ≠ some (second, result) := by
  intro hSlot
  obtain ⟨-, -, rfl, hPosition⟩ := slot_eq_some hSlot
  obtain ⟨_, answered, least⟩ := findIdx?_eq_some_iff_getElem.mp hPosition
  obtain ⟨_, hFirst⟩ := List.getElem?_eq_some_iff.mp hFirst
  obtain ⟨_, hSecond⟩ := List.getElem?_eq_some_iff.mp hSecond
  apply least first before
  rw [RunningTool.answeredBy_iff] at answered ⊢
  rw [answered, hFirst, hSecond, sameKey]

/-- So a batch with a repeated key never completes, whatever is processed. -/
theorem Trace.not_complete_of_shadowed (trace : Trace) :
    ¬ Complete (trace.slots turnId tools) := by
  have unanswered : (trace.events.filterMap (·.slot turnId tools)).findSome?
      (fun answer => if answer.1 = second then some answer.2 else none) = none := by
    rw [findSome?_eq_none_iff]
    intro answer mem
    obtain ⟨event, _, hSlot⟩ := mem_filterMap.mp mem
    split
    · rename_i same
      obtain ⟨position, result⟩ := answer
      obtain rfl : position = second := same
      exact absurd hSlot (AgentEvent.slot_ne_of_shadowed turnId before hFirst hSecond sameKey event result)
    · rfl
  have inRange := (List.getElem?_eq_some_iff.mp hSecond).1
  have vacant : (trace.slots turnId tools)[second]? = some none := by
    rw [slots, getElem?_putAll, unanswered]
    simp [inRange]
  exact not_complete_of_none vacant

end

end Answers

def LoopCall.completion : LoopCall → Option AgentEvent
  | .enqueueInput input => input.completion
  | _ => none

theorem Trace.calls_delivered (trace : Trace) (list : List LoopCall) :
    (trace.calls list).delivered = trace.delivered ++ list.filterMap LoopCall.completion := by
  induction list generalizing trace with
  | nil => simp [calls]
  | cons call _ ih =>
    have here : (trace.call call).delivered = trace.delivered ++ call.completion.toList := by
      cases call with
      | drive => simpa [LoopCall.completion, Trace.call] using trace.drive_delivered
      | enqueueInput input =>
        cases hCompletion : input.completion <;>
          simp [Trace.call, enqueueInput, delivered, Moment.completion, LoopCall.completion,
            hCompletion]
      | drainActions =>
        simp [Trace.call, drainActions, delivered, Moment.completion, LoopCall.completion]
      | drainTranscriptItems =>
        simp [Trace.call, drainTranscriptItems, delivered, Moment.completion, LoopCall.completion]
      | drainPendingInputs =>
        simp [Trace.call, drainPendingInputs, delivered, Moment.completion, LoopCall.completion]
    have there := ih (trace.call call)
    rw [calls, foldl_cons, ← calls, there, here, append_assoc]
    cases hCompletion : call.completion <;> simp [hCompletion]

section Accept

variable {loop : AgentCoreLoop} {turnId : TurnId} {actionId : ActionId}
  (assistant : AssistantMessage)

theorem nextEvent_accept (turnId : TurnId) (actionId : ActionId)
    (settled : loop.mailbox.notifications = []) (quiet : loop.mailbox.interruptRequested = false) :
    (loop.enqueueInput (.modelCompleted actionId turnId assistant)).nextEvent =
      (some (.modelCompleted actionId turnId assistant), loop.mailbox) := by
  obtain ⟨⟨notifications, _, _, _, requested⟩, _, _, _, _, _⟩ := loop
  obtain rfl : notifications = [] := settled
  obtain rfl : requested = false := quiet
  rfl

def accepted (loop : AgentCoreLoop) (turnId : TurnId) (actionId : ActionId)
    (assistant : AssistantMessage) : AgentCoreLoop :=
  loop.apply loop.mailbox
    (loop.state.step (.modelCompleted actionId turnId assistant) loop.nextActionId)

section

variable (running : loop.state = .runningModel turnId actionId)
include running

theorem step_accept :
    loop.state.step (.modelCompleted actionId turnId assistant) loop.nextActionId =
      if assistant.toolCalls = [] then
        { state := .idle
          nextActionId := loop.nextActionId
          items := [.assistantMessage assistant, .turnFinished turnId .graceful]
          actions := [] }
      else
        { state := .runningTools turnId
            (startTools turnId assistant.toolCalls loop.nextActionId).tools 0
          nextActionId := (startTools turnId assistant.toolCalls loop.nextActionId).nextActionId
          items := .assistantMessage assistant
            :: (startTools turnId assistant.toolCalls loop.nextActionId).items
          actions := (startTools turnId assistant.toolCalls loop.nextActionId).actions } := by
  rw [running]
  simp [AgentState.step, AgentState.onModelCompleted, AgentState.isRunningModel]

theorem drive_accept (settled : loop.mailbox.notifications = [])
    (quiet : loop.mailbox.interruptRequested = false) :
    (loop.enqueueInput (.modelCompleted actionId turnId assistant)).drive =
      (accepted loop turnId actionId assistant).drive := by
  have hNext := nextEvent_accept assistant turnId actionId settled quiet
  have hOnce := AgentCoreLoop.driveOnce_of_some hNext
  have again : (loop.enqueueInput
      (.modelCompleted actionId turnId assistant)).driveOnce.2 := by
    rw [AgentCoreLoop.driveOnce_again_iff hNext]
    right
    intro other
    have hStep := step_accept assistant running
    change (loop.state.step (.modelCompleted actionId turnId assistant) loop.nextActionId).state ≠ _
    rw [hStep]
    split <;> simp
  have unfolded := AgentCoreLoop.driveLoop.run_of_again again
  have hBody : (AgentCoreLoop.driveLoop.body (loop.enqueueInput
      (.modelCompleted actionId turnId assistant))).1 = accepted loop turnId actionId assistant :=
    hOnce
  rw [hBody] at unfolded
  exact unfolded

end

end Accept

section Ending

variable {turnId : TurnId} {calls : List ToolCall} {next : ActionId} {origin : AgentCoreLoop}

section

variable (hState : origin.state = .runningTools turnId (startTools turnId calls next).tools 0)
include hState

/-- With a repeated key the batch is still running, whatever was processed. -/
theorem runningTools_of_repeated (someCalls : calls ≠ [])
    (repeated : ¬ (calls.map ToolCall.key).Nodup)
    (quiet : origin.mailbox.interruptRequested = false) (only : origin.mailbox.OnlyCompletions)
    {list : List LoopCall} (noInterrupt : .enqueueInput .interrupt ∉ list) :
    (Trace.run origin list).loop.state.isRunningTools := by
  rw [← startTools_keys turnId calls next, nodup_iff_getElem?_ne_getElem?] at repeated
  push Not at repeated
  obtain ⟨_, _, before, inRange, same⟩ := repeated
  rw [length_map] at inRange
  have firstRange := Nat.lt_trans before inRange
  rw [getElem?_map, getElem?_map, getElem?_eq_getElem firstRange,
    getElem?_eq_getElem inRange] at same
  have incomplete := not_complete_of_shadowed turnId before
    (getElem?_eq_getElem firstRange) (getElem?_eq_getElem inRange)
    (Option.some.inj same) (run origin list)
  have collecting := (Collecting.start hState someCalls quiet only).calls noInterrupt incomplete
  obtain ⟨_, _, hRunning, _⟩ := collecting.state
  rw [run, hRunning]
  rfl

/-- A batch of distinct calls that are all answered is over. -/
theorem not_runningTools_of_distinct (someCalls : calls ≠ [])
    (distinct : (calls.map ToolCall.key).Nodup) (quiet : origin.mailbox.interruptRequested = false)
    (settled : origin.mailbox.notifications = []) {list : List LoopCall}
    (noInterrupt : .enqueueInput .interrupt ∉ list) (only : OnlyToolCompletions list)
    (answered : ∀ tool ∈ (startTools turnId calls next).tools,
      ∃ event ∈ list.filterMap LoopCall.completion, (event.answerTo turnId tool).isSome) :
    ((Trace.run origin list).call .drive).loop.state.isRunningTools = false := by
  have notified : ToolNotified origin := by
    intro event mem
    rw [settled] at mem
    cases mem
  have onlyCompletions : origin.mailbox.OnlyCompletions := by
    intro event mem
    rw [settled] at mem
    cases mem
  have started := Collecting.start hState someCalls quiet onlyCompletions
  have onlyDrive : OnlyToolCompletions [.drive] := by
    intro input mem
    cases mem_singleton.mp mem
  rcases started.calls_or_noBatch notified noInterrupt only with collecting | noBatch
  · rcases collecting.drive with ⟨still, empty⟩ | finished
    · exfalso
      apply still.incomplete
      have distinctTools := (startTools_keys turnId calls next).symm ▸ distinct
      rw [slots_eq distinctTools, Complete, List.forall_mem_map]
      intro tool hTool
      obtain ⟨event, delivered, hAnswer⟩ := answered tool hTool
      have order := still.order
      rw [empty, settled, append_nil, nil_append, drive_delivered, calls_delivered] at order
      rw [answerTo, findSome?_isSome_iff]
      exact ⟨event, order ▸ mem_append_right _ delivered, hAnswer⟩
    · have ready := finished.state
      change (drive _).loop.state.isRunningTools = false
      rw [run, ready]
      rfl
  · have driven := noBatch.calls onlyDrive
    exact driven.outside

end

end Ending

section Answering

variable {turnId : TurnId} {outcome : ActionId → String × ToolResultStatus}
  {requests : List AgentAction} {list : List LoopCall}

theorem LoopCall.mem_filterMap_completionInput {input : AgentInput} :
    input ∈ list.filterMap LoopCall.completionInput ↔
      .enqueueInput input ∈ list ∧ input.completion.isSome := by
  rw [mem_filterMap]
  constructor
  · rintro ⟨call, mem, hInput⟩
    cases call with
    | enqueueInput =>
      rw [completionInput] at hInput
      split at hInput
      · rename_i completes
        cases hInput
        exact ⟨mem, completes⟩
      · cases hInput
    | _ => cases hInput
  · rintro ⟨mem, completes⟩
    exact ⟨_, mem, by simp [completionInput, completes]⟩

theorem onlyToolCompletions_of_answers
    (answers : (list.filterMap LoopCall.completionInput).Perm
      (requests.filterMap (·.answer outcome))) : OnlyToolCompletions list := by
  intro input mem event hEvent
  have listed : input ∈ list.filterMap LoopCall.completionInput :=
    LoopCall.mem_filterMap_completionInput.mpr ⟨mem, isSome_of_mem hEvent⟩
  obtain ⟨request, _, hAnswer⟩ := mem_filterMap.mp (answers.mem_iff.mp listed)
  cases request with
  | requestTool =>
    cases hAnswer
    cases hEvent
    rfl
  | requestModel | cancelTurn => cases hAnswer

theorem answerTo_of_answers {tools : List RunningTool}
    (answers : (list.filterMap LoopCall.completionInput).Perm
      ((tools.map fun tool => AgentAction.requestTool tool.actionId turnId tool.call).filterMap
        (·.answer outcome))) :
    ∀ tool ∈ tools, ∃ event ∈ list.filterMap LoopCall.completion,
      (event.answerTo turnId tool).isSome := by
  intro tool hTool
  have requested : AgentAction.requestTool tool.actionId turnId tool.call ∈
      tools.map fun tool => AgentAction.requestTool tool.actionId turnId tool.call :=
    mem_map_of_mem hTool
  have listed := answers.mem_iff.mpr (mem_filterMap.mpr ⟨_, requested, rfl⟩)
  obtain ⟨mem, _⟩ := LoopCall.mem_filterMap_completionInput.mp listed
  refine ⟨_, mem_filterMap.mpr ⟨_, mem, rfl⟩, ?_⟩
  simp [AgentEvent.answerTo, ToolResultMessage.key, ToolCall.key]

end Answering

/-- Once every tool request of an accepted message has been answered under its
own ids, in any order and with drives anywhere between, the loop has left
`RunningTools` if and only if no two calls of the message share id and tool name. -/
theorem answered_batch_ends_iff_distinct (loop : AgentCoreLoop) (turnId : TurnId)
    (actionId : ActionId) (assistant : AssistantMessage)
    (outcome : ActionId → String × ToolResultStatus) (list : List LoopCall)
    (running : loop.state = .runningModel turnId actionId)
    (settled : loop.mailbox.notifications = [])
    (quiet : loop.mailbox.interruptRequested = false)
    (noInterrupt : .enqueueInput .interrupt ∉ list)
    (answers : (list.filterMap LoopCall.completionInput).Perm
      ((loop.state.step (.modelCompleted actionId turnId assistant)
        loop.nextActionId).actions.filterMap (·.answer outcome))) :
    ((.enqueueInput (.modelCompleted actionId turnId assistant) :: .drive ::
        (list ++ [.drive])).foldl AgentCoreLoop.call loop).state.isRunningTools = false ↔
      (assistant.toolCalls.map ToolCall.key).Nodup := by
  have only : OnlyToolCompletions (.drive :: list) := by
    intro input mem
    rcases mem_cons.mp mem with impossible | mem
    · cases impossible
    · exact onlyToolCompletions_of_answers answers input mem
  have noInterrupt' : .enqueueInput .interrupt ∉ (.drive :: list) := by
    intro mem
    rcases mem_cons.mp mem with impossible | mem
    · cases impossible
    · exact noInterrupt mem
  have folded : (.enqueueInput (.modelCompleted actionId turnId assistant) :: .drive ::
        (list ++ [.drive])).foldl AgentCoreLoop.call loop =
      ((run (accepted loop turnId actionId assistant) (.drive :: list)).call .drive).loop := by
    rw [call_loop, run_loop]
    simp only [foldl_cons, foldl_append, foldl_nil, AgentCoreLoop.call]
    rw [drive_accept assistant running settled quiet]
  rw [folded]
  rw [step_accept assistant running] at answers
  by_cases noCalls : assistant.toolCalls = []
  · have idle : (accepted loop turnId actionId assistant).state = .idle := by
      rw [accepted, step_accept assistant running, if_pos noCalls]
      rfl
    have noBatch : NoBatch (accepted loop turnId actionId assistant) := by
      refine ⟨by rw [idle]; rfl, ?_⟩
      intro event mem
      rw [show (accepted loop turnId actionId assistant).mailbox.notifications = [] from settled]
        at mem
      cases mem
    have ended : NoBatch ((run (accepted loop turnId actionId assistant)
        (.drive :: list)).calls [.drive]).loop := by
      have before : NoBatch (run (accepted loop turnId actionId assistant)
        (.drive :: list)).loop := noBatch.calls only
      apply before.calls
      intro input mem
      cases mem_singleton.mp mem
    rw [noCalls]
    exact ⟨fun _ => nodup_nil, fun _ => ended.outside⟩
  · have hState : (accepted loop turnId actionId assistant).state = .runningTools turnId
        (startTools turnId assistant.toolCalls loop.nextActionId).tools 0 := by
      rw [accepted, step_accept assistant running, if_neg noCalls]
      rfl
    rw [if_neg noCalls, startTools_actions] at answers
    constructor
    · intro left
      by_contra repeated
      have onlyCompletions : (accepted loop turnId actionId assistant).mailbox.OnlyCompletions := by
        intro event mem
        rw [show (accepted loop turnId actionId assistant).mailbox.notifications = [] from settled]
          at mem
        cases mem
      have noInterruptAtAll : .enqueueInput .interrupt ∉ (.drive :: list) ++ [.drive] := by
        simpa using noInterrupt
      have still :=
        runningTools_of_repeated hState noCalls repeated quiet onlyCompletions noInterruptAtAll
      rw [run, calls_append] at still
      exact absurd (left.symm.trans still) Bool.false_ne_true
    · intro distinct
      refine not_runningTools_of_distinct hState noCalls distinct quiet settled noInterrupt' only ?_
      intro tool hTool
      obtain ⟨event, mem, hAnswer⟩ := answerTo_of_answers answers tool hTool
      exact ⟨event, by simpa [LoopCall.completion] using mem, hAnswer⟩

def twoCalls (first second : ToolCallId) : AssistantMessage where
  items := [.toolCall { id := first, toolName := "bash", argsJson := "\x7b\x7d" },
    .toolCall { id := second, toolName := "bash", argsJson := "\x7b\x7d" }]

def bashResult (toolCallId : ToolCallId) : ToolResultMessage where
  toolCallId := toolCallId
  toolName := "bash"
  output := "ok"
  status := .success

theorem two_distinct_calls_end :
    ((.enqueueInput (.modelCompleted 1 1 (twoCalls "a" "b")) :: .drive ::
        ([.enqueueInput (.toolCompleted 3 1 (bashResult "b")), .drive,
          .enqueueInput (.toolCompleted 2 1 (bashResult "a"))] ++ [.drive])).foldl
      AgentCoreLoop.call (.resumeRunningModel 1 1)).state.isRunningTools = false :=
  (answered_batch_ends_iff_distinct (.resumeRunningModel 1 1) 1 1 (twoCalls "a" "b")
    (fun _ => ("ok", .success)) _ rfl rfl rfl (by decide) (by decide)).mpr (by decide)

/-- The requests of a repeated call are both out and both answered, and the batch
still runs. -/
theorem two_equal_calls_never_end :
    (Trace.run .new [.enqueueInput (.followUp ⟨.text "go"⟩), .drive,
        .enqueueInput (.modelCompleted 1 1 (twoCalls "a" "a")), .drive,
        .enqueueInput (.toolCompleted 2 1 (bashResult "a")),
        .enqueueInput (.toolCompleted 3 1 (bashResult "a")), .drive]).emittedActions =
      [.requestModel 1 1,
        .requestTool 2 1 { id := "a", toolName := "bash", argsJson := "\x7b\x7d" },
        .requestTool 3 1 { id := "a", toolName := "bash", argsJson := "\x7b\x7d" }] ∧
    (Trace.run .new [.enqueueInput (.followUp ⟨.text "go"⟩), .drive,
        .enqueueInput (.modelCompleted 1 1 (twoCalls "a" "a")), .drive,
        .enqueueInput (.toolCompleted 2 1 (bashResult "a")),
        .enqueueInput (.toolCompleted 3 1 (bashResult "a")), .drive]).loop.state.isRunningTools =
      true := by
  decide

end PiRelay.AgentCore
