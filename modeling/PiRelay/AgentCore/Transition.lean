import PiRelay.AgentCore.State
import PiRelay.Library.ReorderBuffer

/-! What one event can do to the state of a turn. Either the event does not fit
and nothing changes, or one of the rows below applies. Every invariant of the
state machine is proved from this table, so a change to one handler is a change
to its row. -/
namespace PiRelay.AgentCore

open AgentVocab List

namespace AgentState

/-- The effective transitions, with the guard under which each one happens. -/
inductive Fires (next : ActionId) : AgentState → AgentEvent → Transition → Prop where
  | startTurn (turnId : TurnId) (input : TurnInput) :
      Fires next .idle (.startTurn turnId input)
        (requestModel turnId [.turnStarted turnId, input.intoTranscriptItem] next)
  | startObservation (turnId : TurnId) (observation : DaemonToolObservation) :
      Fires next .idle (.startDaemonObservationTurn turnId observation)
        (requestModel turnId [.turnStarted turnId, .daemonToolObservation observation] next)
  | steer (turnId : TurnId) (input : TurnInput) :
      Fires next (.readyToContinue turnId) (.steer input)
        (requestModel turnId [input.intoTranscriptItem] next)
  | observation (turnId : TurnId) (observation : DaemonToolObservation) :
      Fires next (.readyToContinue turnId) (.daemonObservation observation)
        (requestModel turnId [.daemonToolObservation observation] next)
  | continueModel (turnId : TurnId) :
      Fires next (.readyToContinue turnId) .continueModel (requestModel turnId [] next)
  | finish (turnId : TurnId) (actionId : ActionId) (assistant : AssistantMessage)
      (noCalls : assistant.toolCalls = []) :
      Fires next (.runningModel turnId actionId) (.modelCompleted actionId turnId assistant)
        { state := .idle
          nextActionId := next
          items := [.assistantMessage assistant, .turnFinished turnId .graceful]
          actions := [] }
  | startTools (turnId : TurnId) (actionId : ActionId) (assistant : AssistantMessage)
      (someCalls : assistant.toolCalls ≠ []) :
      Fires next (.runningModel turnId actionId) (.modelCompleted actionId turnId assistant)
        { state := .runningTools turnId
            (AgentCore.startTools turnId assistant.toolCalls next).tools 0
          nextActionId := (AgentCore.startTools turnId assistant.toolCalls next).nextActionId
          items := .assistantMessage assistant
            :: (AgentCore.startTools turnId assistant.toolCalls next).items
          actions := (AgentCore.startTools turnId assistant.toolCalls next).actions }
  | fail (turnId : TurnId) (actionId : ActionId) (error : String) :
      Fires next (.runningModel turnId actionId) (.modelFailed actionId turnId error)
        { state := .idle
          nextActionId := next
          items := [.turnFinished turnId .crashed]
          actions := [] }
  | recordResult (turnId : TurnId) (tools : List RunningTool) (nextResultIndex : Nat)
      (resultIndex : Nat) (tool : RunningTool) (result : ToolResultMessage)
      (position : tools.findIdx? (·.answeredBy result) = some resultIndex)
      (slot : tools[resultIndex]? = some tool) (unrecorded : nextResultIndex ≤ resultIndex)
      (unanswered : tool.result = none) :
      Fires next (.runningTools turnId tools nextResultIndex)
        (.toolCompleted tool.actionId turnId result)
        (AgentState.recordResult turnId tools nextResultIndex resultIndex result next)
  | interruptReady (turnId : TurnId) :
      Fires next (.readyToContinue turnId) .interrupt
        { state := .idle
          nextActionId := next
          items := [.turnFinished turnId .interrupted]
          actions := [] }
  | interruptModel (turnId : TurnId) (actionId : ActionId) :
      Fires next (.runningModel turnId actionId) .interrupt
        { state := .idle
          nextActionId := next
          items := [.turnFinished turnId .interrupted]
          actions := [.cancelTurn turnId] }
  | interruptTools (turnId : TurnId) (tools : List RunningTool) (nextResultIndex : Nat) :
      Fires next (.runningTools turnId tools nextResultIndex) .interrupt
        { state := .idle
          nextActionId := next
          items := (tools.drop nextResultIndex).map
              (fun tool => .toolResult (interruptedResult tool))
            ++ [.turnFinished turnId .interrupted]
          actions := [.cancelTurn turnId] }

theorem isRunningModel_eq_true {state : AgentState} {actionId : ActionId} {turnId : TurnId}
    (running : state.isRunningModel actionId turnId) : state = .runningModel turnId actionId := by
  cases state with
  | runningModel =>
    simp only [isRunningModel, Bool.and_eq_true, beq_iff_eq] at running
    rw [running.1, running.2]
  | _ => simp [isRunningModel] at running

variable (actionId : ActionId)

theorem onModelCompleted_cases (turnId : TurnId) (assistant : AssistantMessage) (next : ActionId)
    (state : AgentState) :
    state.onModelCompleted actionId turnId assistant next = emptyTransition state next ∨
      Fires next state (.modelCompleted actionId turnId assistant)
        (state.onModelCompleted actionId turnId assistant next) := by
  cases running : state.isRunningModel actionId turnId with
  | false => exact .inl (by simp [onModelCompleted, running])
  | true =>
    right
    obtain rfl := isRunningModel_eq_true running
    cases calls : assistant.toolCalls with
    | nil =>
      rw [onModelCompleted, running, calls]
      exact .finish turnId actionId assistant calls
    | cons =>
      have started : Fires next _ _ _ := .startTools turnId actionId assistant (by simp [calls])
      simpa [onModelCompleted, running, calls] using started

theorem onModelFailed_cases (turnId : TurnId) (error : String) (next : ActionId)
    (state : AgentState) :
    state.onModelFailed actionId turnId error next = emptyTransition state next ∨
      Fires next state (.modelFailed actionId turnId error)
        (state.onModelFailed actionId turnId error next) := by
  cases running : state.isRunningModel actionId turnId with
  | false => exact .inl (by simp [onModelFailed, running])
  | true =>
    right
    obtain rfl := isRunningModel_eq_true running
    rw [onModelFailed, running]
    exact .fail turnId actionId error

theorem onToolCompleted_cases (turnId : TurnId) (result : ToolResultMessage) (next : ActionId)
    (state : AgentState) :
    state.onToolCompleted actionId turnId result next = emptyTransition state next ∨
      Fires next state (.toolCompleted actionId turnId result)
        (state.onToolCompleted actionId turnId result next) := by
  cases state with
  | runningTools activeTurnId tools nextResultIndex =>
    by_cases same : activeTurnId = turnId
    · subst same
      cases position : tools.findIdx? (·.answeredBy result) with
      | none => exact .inl (by simp [onToolCompleted, position])
      | some resultIndex =>
        cases slot : tools[resultIndex]? with
        | none => exact .inl (by simp [onToolCompleted, position, slot])
        | some tool =>
          by_cases owner : tool.actionId = actionId
          · subst owner
            by_cases late : (decide (resultIndex < nextResultIndex)
                || tool.result.isSome)
            · exact .inl (by simp only [onToolCompleted, position, slot, late,
                ne_eq, not_true_eq_false, ↓reduceIte])
            · right
              have guards : nextResultIndex ≤ resultIndex ∧ tool.result = none := by
                simpa using late
              simp only [onToolCompleted, position, slot, late, ne_eq, not_true_eq_false,
                ↓reduceIte]
              exact .recordResult _ _ _ _ _ _ position slot guards.1 guards.2
          · exact .inl (by simp [onToolCompleted, position, slot, owner])
    · exact .inl (by simp [onToolCompleted, same])
  | _ => exact .inl rfl

/-- An event fires, or the transition is empty. -/
theorem step_cases (state : AgentState) (event : AgentEvent) (next : ActionId) :
    state.step event next = emptyTransition state next ∨
      Fires next state event (state.step event next) := by
  cases event with
  | modelCompleted actionId turnId assistant =>
    exact onModelCompleted_cases actionId turnId assistant next state
  | modelFailed actionId turnId error => exact onModelFailed_cases actionId turnId error next state
  | toolCompleted actionId turnId result =>
    exact onToolCompleted_cases actionId turnId result next state
  | interrupt =>
    cases state with
    | idle => exact .inl rfl
    | runningModel turnId actionId => exact .inr (.interruptModel turnId actionId)
    | runningTools turnId tools index => exact .inr (.interruptTools turnId tools index)
    | readyToContinue turnId => exact .inr (.interruptReady turnId)
  | startTurn turnId input =>
    cases state with
    | idle => exact .inr (.startTurn turnId input)
    | _ => exact .inl rfl
  | startDaemonObservationTurn turnId observation =>
    cases state with
    | idle => exact .inr (.startObservation turnId observation)
    | _ => exact .inl rfl
  | steer input =>
    cases state with
    | readyToContinue turnId => exact .inr (.steer turnId input)
    | _ => exact .inl rfl
  | daemonObservation observation =>
    cases state with
    | readyToContinue turnId => exact .inr (.observation turnId observation)
    | _ => exact .inl rfl
  | continueModel =>
    cases state with
    | readyToContinue turnId => exact .inr (.continueModel turnId)
    | _ => exact .inl rfl

end AgentState

section Loops

variable (turnId : TurnId) (calls : List ToolCall) (next : ActionId)

@[simp] theorem startTools_map_call :
    (startTools turnId calls next).tools.map RunningTool.call = calls := by
  induction calls generalizing next with
  | nil => rfl
  | cons _ _ ih => simp [startTools, ActionId.takeNext, ih]

theorem startTools_keys :
    (startTools turnId calls next).tools.map (·.call.key) = calls.map ToolCall.key := by
  have keys : (startTools turnId calls next).tools.map (·.call.key) =
      ((startTools turnId calls next).tools.map RunningTool.call).map ToolCall.key := by
    rw [List.map_map]
    rfl
  rw [keys, startTools_map_call]

@[simp] theorem startTools_length : (startTools turnId calls next).tools.length = calls.length := by
  rw [← length_map (f := RunningTool.call), startTools_map_call]

theorem startTools_result {tool : RunningTool} (hTool : tool ∈ (startTools turnId calls next).tools) :
    tool.result = none := by
  induction calls generalizing next with
  | nil => simp [startTools] at hTool
  | cons _ _ ih =>
    rw [startTools, ActionId.takeNext, mem_cons] at hTool
    rcases hTool with rfl | hTool
    · rfl
    · exact ih _ hTool

theorem startTools_items :
    (startTools turnId calls next).items = calls.map (.toolCallStarted turnId ·) := by
  induction calls generalizing next with
  | nil => rfl
  | cons _ _ ih => simp [startTools, ActionId.takeNext, ih]

theorem startTools_nextActionId :
    (startTools turnId calls next).nextActionId = next + calls.length := by
  induction calls generalizing next with
  | nil => rfl
  | cons _ rest ih =>
    rw [startTools, ActionId.takeNext, ih, length_cons]
    exact Nat.add_right_comm next 1 rest.length

theorem startTools_actions :
    (startTools turnId calls next).actions =
      (startTools turnId calls next).tools.map
        fun tool => .requestTool tool.actionId turnId tool.call := by
  induction calls generalizing next with
  | nil => rfl
  | cons _ _ ih => simp [startTools, ActionId.takeNext, ih]

theorem startTools_map_actionId :
    (startTools turnId calls next).tools.map RunningTool.actionId =
      List.range' next calls.length := by
  induction calls generalizing next with
  | nil => rfl
  | cons _ _ ih => simp [startTools, ActionId.takeNext, ih, range'_succ]

end Loops

section Results

def RunningTool.hasResult (tool : RunningTool) : Bool := tool.result.isSome

def RunningTool.cleared (tool : RunningTool) : RunningTool := { tool with result := none }

def RunningTool.store (result : ToolResultMessage) (tool : RunningTool) : RunningTool :=
  { tool with result := some result }

variable (tools : List RunningTool)

theorem takeResults_eq :
    takeResults tools =
      { tools := (tools.takeWhile (·.hasResult)).map RunningTool.cleared
          ++ tools.dropWhile (·.hasResult)
        count := (tools.takeWhile (·.hasResult)).length
        items :=
          ((tools.takeWhile (·.hasResult)).filterMap RunningTool.result).map .toolResult } := by
  induction tools with
  | nil => rfl
  | cons tool _ ih =>
    cases hResult : tool.result with
    | none => simp [takeResults, RunningTool.hasResult, hResult]
    | some => simp [takeResults, RunningTool.hasResult, hResult, ih, RunningTool.cleared]

def takenTools (nextResultIndex : Nat) : List RunningTool :=
  (tools.drop nextResultIndex).takeWhile (·.hasResult)

/-- The batch once these results are recorded. -/
def advancedTools (nextResultIndex : Nat) : List RunningTool :=
  tools.take nextResultIndex ++ ((takenTools tools nextResultIndex).map RunningTool.cleared
    ++ (tools.drop nextResultIndex).dropWhile (·.hasResult))

theorem advancedTools_map {α : Type} (view : RunningTool → α)
    (blind : ∀ tool, view tool.cleared = view tool) (nextResultIndex : Nat) :
    (advancedTools tools nextResultIndex).map view = tools.map view := by
  have cleared : view ∘ RunningTool.cleared = view := funext blind
  rw [advancedTools, map_append, map_append, List.map_map, cleared, takenTools,
    ← map_append, takeWhile_append_dropWhile, ← map_append, take_append_drop]

theorem modify_store_map {α : Type} (view : RunningTool → α) (result : ToolResultMessage)
    (blind : ∀ tool, view (RunningTool.store result tool) = view tool) (resultIndex : Nat) :
    (tools.modify resultIndex (RunningTool.store result)).map view = tools.map view := by
  rw [Library.map_modify tools resultIndex _ view id blind, modify_id]

variable (nextResultIndex : Nat)

theorem advancedTools_map_call :
    (advancedTools tools nextResultIndex).map RunningTool.call = tools.map RunningTool.call :=
  advancedTools_map tools RunningTool.call (fun _ => rfl) nextResultIndex

theorem modify_map_call (resultIndex : Nat) (result : ToolResultMessage) :
    (tools.modify resultIndex (RunningTool.store result)).map RunningTool.call =
      tools.map RunningTool.call :=
  modify_store_map tools RunningTool.call result (fun _ => rfl) resultIndex

theorem advancedTools_length : (advancedTools tools nextResultIndex).length = tools.length := by
  rw [← length_map (f := RunningTool.call), advancedTools_map_call, length_map]

theorem takenTools_map_call :
    (takenTools tools nextResultIndex).map RunningTool.call =
      ((tools.map RunningTool.call).drop nextResultIndex).take
        (takenTools tools nextResultIndex).length := by
  have front : takenTools tools nextResultIndex <+: tools.drop nextResultIndex := takeWhile_prefix _
  rw [← map_drop, ← map_take, ← prefix_iff_eq_take.mp front]

theorem advancedTools_drop {nextResultIndex : Nat} (inRange : nextResultIndex ≤ tools.length) :
    (advancedTools tools nextResultIndex).drop
        (nextResultIndex + (takenTools tools nextResultIndex).length) =
      tools.drop (nextResultIndex + (takenTools tools nextResultIndex).length) := by
  have hDrop : (advancedTools tools nextResultIndex).drop
        (nextResultIndex + (takenTools tools nextResultIndex).length) =
      (tools.drop nextResultIndex).dropWhile (·.hasResult) := by
    rw [advancedTools, ← append_assoc]
    apply drop_left'
    simp [inRange]
  rw [hDrop, ← drop_drop, takenTools, Library.ReorderBuffer.drop_length_takeWhile]

theorem AgentState.recordResult_eq (turnId : TurnId) (nextResultIndex resultIndex : Nat)
    (result : ToolResultMessage) (next : ActionId) :
    recordResult turnId tools nextResultIndex resultIndex result next =
      let answered := tools.modify resultIndex (RunningTool.store result)
      let recorded := nextResultIndex + (takenTools answered nextResultIndex).length
      { state :=
          if recorded = tools.length then .readyToContinue turnId
          else .runningTools turnId (advancedTools answered nextResultIndex) recorded
        nextActionId := next
        items := ((takenTools answered nextResultIndex).filterMap RunningTool.result).map .toolResult
        actions := [] } := by
  have hLength := advancedTools_length (tools.modify resultIndex (RunningTool.store result))
    nextResultIndex
  rw [length_modify] at hLength
  rw [← hLength]
  have stored : (fun tool : RunningTool => { tool with result := some result }) =
    RunningTool.store result := rfl
  rw [recordResult, stored, takeResults_eq]
  rfl

theorem RunningTool.answeredBy_iff {result : ToolResultMessage} {tool : RunningTool} :
    tool.answeredBy result ↔ result.key = tool.call.key := by
  simp only [answeredBy, Bool.and_eq_true, beq_iff_eq, ToolResultMessage.key, ToolCall.key,
    Prod.mk.injEq]
  exact and_congr eq_comm eq_comm

variable {tools}

theorem findIdx?_answeredBy (distinct : (tools.map (·.call.key)).Nodup) {position : Nat}
    {tool : RunningTool} (hTool : tools[position]? = some tool) {result : ToolResultMessage}
    (hKey : result.key = tool.call.key) : tools.findIdx? (·.answeredBy result) = some position := by
  obtain ⟨inRange, rfl⟩ := List.getElem?_eq_some_iff.mp hTool
  rw [findIdx?_eq_some_iff_getElem]
  refine ⟨inRange, RunningTool.answeredBy_iff.mpr hKey, ?_⟩
  intro other before answered
  have sameKey : tools[other].call.key = tools[position].call.key :=
    (RunningTool.answeredBy_iff.mp answered).symm.trans hKey
  have samePosition : other = position := by
    have otherRange : other < tools.length := Nat.lt_trans before inRange
    rw [← length_map (·.call.key)] at otherRange
    apply (getElem?_inj otherRange distinct).mp
    simp [Nat.lt_trans before inRange, inRange, sameKey]
  exact absurd before (samePosition ▸ Nat.lt_irrefl _)

end Results

end PiRelay.AgentCore
