import Mathlib.Data.List.Basic

/-! The shared vocabulary: identifiers, messages, tool calls and transcript
items. There is no behavior here beyond the accessors the other layers read.
Identifiers are counters of 64 bits in the source and natural numbers here; the
store keeps them in a `bigint` column, so no run comes near the last one. -/
namespace PiRelay.AgentVocab

abbrev TurnId := Nat

def TurnId.first : TurnId := 1

def TurnId.next (turnId : TurnId) : TurnId := turnId + 1

abbrev ActionId := Nat

def ActionId.first : ActionId := 1

/-- The id handed out, and the counter after it. -/
def ActionId.takeNext (next : ActionId) : ActionId × ActionId := (next, next + 1)

abbrev ToolCallId := String

inductive ImageSource where
  | base64 (data : String)
  | url (location : String)
deriving DecidableEq

structure ImageContent where
  mimeType : String
  source : ImageSource
deriving DecidableEq

inductive ContentBlock where
  | text (text : String)
  | image (image : ImageContent)
deriving DecidableEq

structure UserMessage where
  content : List ContentBlock
  replayedAfterCompaction : Bool := false
deriving DecidableEq

def UserMessage.text (text : String) : UserMessage := { content := [.text text] }

structure ToolCall where
  id : ToolCallId
  toolName : String
  argsJson : String
deriving DecidableEq

/-- The pair by which a result names the call it answers. -/
def ToolCall.key (call : ToolCall) : ToolCallId × String := (call.id, call.toolName)

inductive AssistantItem where
  | text (text : String)
  | toolCall (call : ToolCall)
deriving DecidableEq

structure AssistantMessage where
  items : List AssistantItem
deriving DecidableEq

def AssistantMessage.toolCalls (message : AssistantMessage) : List ToolCall :=
  message.items.filterMap fun
    | .toolCall call => some call
    | .text _ => none

inductive ToolResultStatus where
  | success
  | error
  | interrupted
  | crashed
deriving DecidableEq

structure ToolResultMessage where
  toolCallId : ToolCallId
  toolName : String
  output : String
  status : ToolResultStatus
deriving DecidableEq

namespace ToolResultMessage

def key (result : ToolResultMessage) : ToolCallId × String :=
  (result.toolCallId, result.toolName)

def crashed (toolCallId : ToolCallId) (toolName : String) : ToolResultMessage where
  toolCallId := toolCallId
  toolName := toolName
  output := "crashed before tool result was recorded"
  status := .crashed

@[simp] theorem crashed_key (toolCallId : ToolCallId) (toolName : String) :
    (crashed toolCallId toolName).key = (toolCallId, toolName) := rfl

end ToolResultMessage

/-- A daemon-authored observation. Its JSON result is only carried, so it is
kept as its text. -/
structure DaemonToolObservation where
  toolCallId : ToolCallId
  toolName : String
  argsJson : String
  resultJson : String
  status : ToolResultStatus
  summary : Option String
deriving DecidableEq

inductive ProviderKind where
  | openAi
  | claude
deriving DecidableEq

inductive ReplayDisplayKind where
  | localTool
  | hostedTool
deriving DecidableEq

structure ReplayDisplay where
  kind : ReplayDisplayKind
  prettyName : String
  inputSummary : Option String
deriving DecidableEq

/-- One provider-native record of the replay lane beside a transcript entry. -/
structure ProviderReplayItem where
  provider : ProviderKind
  rawJson : String
  display : Option ReplayDisplay
deriving DecidableEq

inductive TurnOutcome where
  | graceful
  | interrupted
  | crashed
deriving DecidableEq

structure CompactionSummary where
  sourceSessionId : String
  sourceLeafId : String
  summary : String
  tokensBefore : Option Nat
  lastTurnId : TurnId
  turnStartedAtMs : Option Nat
deriving DecidableEq

inductive TranscriptItem where
  | turnStarted (turnId : TurnId)
  | userMessage (message : UserMessage)
  | assistantMessage (message : AssistantMessage)
  | toolCallStarted (turnId : TurnId) (toolCall : ToolCall)
  | toolResult (result : ToolResultMessage)
  | turnFinished (turnId : TurnId) (outcome : TurnOutcome)
  | compactionSummary (summary : CompactionSummary)
  | daemonToolObservation (observation : DaemonToolObservation)
deriving DecidableEq

namespace TranscriptItem

def turnId : TranscriptItem → Option TurnId
  | .turnStarted turnId | .toolCallStarted turnId _ | .turnFinished turnId _ => some turnId
  | .compactionSummary summary => some summary.lastTurnId
  | .userMessage _ | .assistantMessage _ | .toolResult _ | .daemonToolObservation _ => none

/-- The items a history edit may stop at: a finished turn or a compacted root. -/
def isTurnBoundary : TranscriptItem → Bool
  | .turnFinished _ _ | .compactionSummary _ => true
  | _ => false

def isUserMessage : TranscriptItem → Bool
  | .userMessage _ => true
  | _ => false

def isInput : TranscriptItem → Bool
  | .userMessage _ | .daemonToolObservation _ => true
  | _ => false

end TranscriptItem

end PiRelay.AgentVocab
