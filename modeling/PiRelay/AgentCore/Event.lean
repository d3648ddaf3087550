import PiRelay.AgentVocab

/-! What goes into the live state machine of one agent and what it asks for.
Inputs come from the caller, events are what the mailbox hands to the machine,
and actions are the side effects the caller is to perform. -/
namespace PiRelay.AgentCore

open AgentVocab

/-- First transcript record of a new turn. -/
structure TurnInput where
  message : UserMessage
deriving DecidableEq

def TurnInput.intoTranscriptItem (input : TurnInput) : TranscriptItem :=
  .userMessage input.message

inductive AgentInput where
  | interrupt
  | steer (content : TurnInput)
  | followUp (content : TurnInput)
  | daemonObservation (observation : DaemonToolObservation)
  | modelCompleted (actionId : ActionId) (turnId : TurnId) (assistant : AssistantMessage)
  | modelFailed (actionId : ActionId) (turnId : TurnId) (error : String)
  | toolCompleted (actionId : ActionId) (turnId : TurnId) (result : ToolResultMessage)
deriving DecidableEq

inductive AgentEvent where
  | interrupt
  | startTurn (turnId : TurnId) (input : TurnInput)
  | startDaemonObservationTurn (turnId : TurnId) (observation : DaemonToolObservation)
  | steer (input : TurnInput)
  | daemonObservation (observation : DaemonToolObservation)
  | modelCompleted (actionId : ActionId) (turnId : TurnId) (assistant : AssistantMessage)
  | modelFailed (actionId : ActionId) (turnId : TurnId) (error : String)
  | toolCompleted (actionId : ActionId) (turnId : TurnId) (result : ToolResultMessage)
  | continueModel
deriving DecidableEq

inductive AgentAction where
  | requestModel (actionId : ActionId) (turnId : TurnId)
  | requestTool (actionId : ActionId) (turnId : TurnId) (toolCall : ToolCall)
  | cancelTurn (turnId : TurnId)
deriving DecidableEq

/-- The id under which a request expects its completion. -/
def AgentAction.actionId : AgentAction → Option ActionId
  | .requestModel actionId _ | .requestTool actionId _ _ => some actionId
  | .cancelTurn _ => none

end PiRelay.AgentCore
