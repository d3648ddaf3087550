import PiRelay.AgentCore.Event

/-! The control states of one agent turn and the handler of every event. A
handler returns the state after the event, the action counter after it, and the
two outputs. An event that does not fit the state changes nothing. -/
namespace PiRelay.AgentCore

open AgentVocab

structure RunningTool where
  call : ToolCall
  actionId : ActionId
  result : Option ToolResultMessage
deriving DecidableEq

inductive AgentState where
  | idle
  | runningModel (turnId : TurnId) (actionId : ActionId)
  | runningTools (turnId : TurnId) (tools : List RunningTool) (nextResultIndex : Nat)
  | readyToContinue (turnId : TurnId)
deriving DecidableEq

/-- The outcome of one event: the two mutable cells the handler was given, and
its two outputs. -/
structure Transition where
  state : AgentState
  nextActionId : ActionId
  items : List TranscriptItem
  actions : List AgentAction
deriving DecidableEq

def emptyTransition (state : AgentState) (nextActionId : ActionId) : Transition :=
  { state, nextActionId, items := [], actions := [] }

def requestModel (turnId : TurnId) (items : List TranscriptItem) (nextActionId : ActionId) :
    Transition :=
  let (actionId, nextActionId) := ActionId.takeNext nextActionId
  { state := .runningModel turnId actionId
    nextActionId := nextActionId
    items := items
    actions := [.requestModel actionId turnId] }

/-- What the loop over the tool calls of an accepted message has built. -/
structure StartedTools where
  tools : List RunningTool
  items : List TranscriptItem
  actions : List AgentAction
  nextActionId : ActionId

def startTools (turnId : TurnId) : List ToolCall → ActionId → StartedTools
  | [], nextActionId => { tools := [], items := [], actions := [], nextActionId }
  | toolCall :: rest, nextActionId =>
    let (actionId, nextActionId) := ActionId.takeNext nextActionId
    let started := startTools turnId rest nextActionId
    { tools := { call := toolCall, actionId := actionId, result := none } :: started.tools
      items := .toolCallStarted turnId toolCall :: started.items
      actions := .requestTool actionId turnId toolCall :: started.actions
      nextActionId := started.nextActionId }

/-- What the loop over the buffered results has taken: the tools from the first
unrecorded one on, how many of them were recorded, and their items. -/
structure TakenResults where
  tools : List RunningTool
  count : Nat
  items : List TranscriptItem

def takeResults : List RunningTool → TakenResults
  | [] => { tools := [], count := 0, items := [] }
  | tool :: rest =>
    match tool.result with
    | none => { tools := tool :: rest, count := 0, items := [] }
    | some result =>
      let taken := takeResults rest
      { tools := { tool with result := none } :: taken.tools
        count := taken.count + 1
        items := .toolResult result :: taken.items }

/-- The position test of a tool completion. The action id is not part of it. -/
def RunningTool.answeredBy (result : ToolResultMessage) (tool : RunningTool) : Bool :=
  tool.call.id == result.toolCallId && tool.call.toolName == result.toolName

namespace AgentState

def onStartTurn (turnId : TurnId) (input : TurnInput) (nextActionId : ActionId) :
    AgentState → Transition
  | .idle => requestModel turnId [.turnStarted turnId, input.intoTranscriptItem] nextActionId
  | state => emptyTransition state nextActionId

def onSteer (input : TurnInput) (nextActionId : ActionId) : AgentState → Transition
  | .readyToContinue turnId => requestModel turnId [input.intoTranscriptItem] nextActionId
  | state => emptyTransition state nextActionId

def onStartDaemonObservationTurn (turnId : TurnId) (observation : DaemonToolObservation)
    (nextActionId : ActionId) : AgentState → Transition
  | .idle =>
    requestModel turnId [.turnStarted turnId, .daemonToolObservation observation] nextActionId
  | state => emptyTransition state nextActionId

def onDaemonObservation (observation : DaemonToolObservation) (nextActionId : ActionId) :
    AgentState → Transition
  | .readyToContinue turnId => requestModel turnId [.daemonToolObservation observation] nextActionId
  | state => emptyTransition state nextActionId

/-- The guard of both model completions: the one request in flight is theirs. -/
def isRunningModel (state : AgentState) (actionId : ActionId) (turnId : TurnId) : Bool :=
  match state with
  | .runningModel activeTurnId activeActionId =>
    activeTurnId == turnId && activeActionId == actionId
  | _ => false

def onModelCompleted (actionId : ActionId) (turnId : TurnId) (assistant : AssistantMessage)
    (nextActionId : ActionId) (state : AgentState) : Transition :=
  if !state.isRunningModel actionId turnId then emptyTransition state nextActionId
  else if assistant.toolCalls.isEmpty then
    { state := .idle
      nextActionId := nextActionId
      items := [.assistantMessage assistant, .turnFinished turnId .graceful]
      actions := [] }
  else
    let started := startTools turnId assistant.toolCalls nextActionId
    { state := .runningTools turnId started.tools 0
      nextActionId := started.nextActionId
      items := .assistantMessage assistant :: started.items
      actions := started.actions }

def onModelFailed (actionId : ActionId) (turnId : TurnId) (_error : String)
    (nextActionId : ActionId) (state : AgentState) : Transition :=
  if !state.isRunningModel actionId turnId then emptyTransition state nextActionId
  else
    { state := .idle
      nextActionId := nextActionId
      items := [.turnFinished turnId .crashed]
      actions := [] }

/-- The recorded part of `on_tool_completed`: the result is stored in its slot,
and every result now at the front of the unrecorded part is taken. -/
def recordResult (turnId : TurnId) (tools : List RunningTool) (nextResultIndex : Nat)
    (resultIndex : Nat) (result : ToolResultMessage) (nextActionId : ActionId) : Transition :=
  let tools := tools.modify resultIndex fun tool => { tool with result := some result }
  let taken := takeResults (tools.drop nextResultIndex)
  let tools := tools.take nextResultIndex ++ taken.tools
  let nextResultIndex := nextResultIndex + taken.count
  { state :=
      if nextResultIndex = tools.length then .readyToContinue turnId
      else .runningTools turnId tools nextResultIndex
    nextActionId := nextActionId
    items := taken.items
    actions := [] }

def onToolCompleted (actionId : ActionId) (turnId : TurnId) (result : ToolResultMessage)
    (nextActionId : ActionId) (state : AgentState) : Transition :=
  match state with
  | .runningTools activeTurnId tools nextResultIndex =>
    if activeTurnId ≠ turnId then emptyTransition state nextActionId
    else
      match tools.findIdx? (·.answeredBy result) with
      | none => emptyTransition state nextActionId
      | some resultIndex =>
        match tools[resultIndex]? with
        | none => emptyTransition state nextActionId
        | some tool =>
          if tool.actionId ≠ actionId then emptyTransition state nextActionId
          else if resultIndex < nextResultIndex || tool.result.isSome then
            emptyTransition state nextActionId
          else recordResult turnId tools nextResultIndex resultIndex result nextActionId
  | state => emptyTransition state nextActionId

def onContinueModel (nextActionId : ActionId) : AgentState → Transition
  | .readyToContinue turnId => requestModel turnId [] nextActionId
  | state => emptyTransition state nextActionId

def interruptedResult (tool : RunningTool) : ToolResultMessage :=
  tool.result.getD (ToolResultMessage.crashed tool.call.id tool.call.toolName)

def onInterrupt (nextActionId : ActionId) (state : AgentState) : Transition :=
  match state with
  | .idle => emptyTransition state nextActionId
  | .readyToContinue turnId =>
    { state := .idle
      nextActionId := nextActionId
      items := [.turnFinished turnId .interrupted]
      actions := [] }
  | .runningModel turnId _ =>
    { state := .idle
      nextActionId := nextActionId
      items := [.turnFinished turnId .interrupted]
      actions := [.cancelTurn turnId] }
  | .runningTools turnId tools nextResultIndex =>
    { state := .idle
      nextActionId := nextActionId
      items := (tools.drop nextResultIndex).map (fun tool => .toolResult (interruptedResult tool))
        ++ [.turnFinished turnId .interrupted]
      actions := [.cancelTurn turnId] }

def step (state : AgentState) (event : AgentEvent) (nextActionId : ActionId) : Transition :=
  match event with
  | .interrupt => state.onInterrupt nextActionId
  | .startTurn turnId input => state.onStartTurn turnId input nextActionId
  | .steer input => state.onSteer input nextActionId
  | .startDaemonObservationTurn turnId observation =>
    state.onStartDaemonObservationTurn turnId observation nextActionId
  | .daemonObservation observation => state.onDaemonObservation observation nextActionId
  | .modelCompleted actionId turnId assistant =>
    state.onModelCompleted actionId turnId assistant nextActionId
  | .modelFailed actionId turnId error => state.onModelFailed actionId turnId error nextActionId
  | .toolCompleted actionId turnId result =>
    state.onToolCompleted actionId turnId result nextActionId
  | .continueModel => state.onContinueModel nextActionId

end AgentState

end PiRelay.AgentCore
