import PiRelay.AgentVocab

/-! The materialized context of one transcript path, and the repair of a turn
that a path leaves open. Items and replay lanes run side by side. -/
namespace PiRelay.Session

open AgentVocab

structure ModelContextEntry where
  item : TranscriptItem
  providerReplay : List ProviderReplayItem

structure ModelContext where
  items : List TranscriptItem
  providerReplay : List (List ProviderReplayItem)
deriving DecidableEq

namespace ModelContext

variable (items : List TranscriptItem)

def fromTranscriptItems : ModelContext where
  items := items
  providerReplay := List.replicate items.length []

def fromEntries (entries : List ModelContextEntry) : ModelContext where
  items := entries.map (·.item)
  providerReplay := entries.map (·.providerReplay)

variable (context : ModelContext)

def intoEntries : List ModelContextEntry :=
  context.items.zipWith ModelContextEntry.mk context.providerReplay

def lastTurnId : TurnId :=
  (context.items.reverse.findSome? TranscriptItem.turnId).getD 0

def isTurnBoundaryItems : Bool :=
  match items.getLast? with
  | some item => item.isTurnBoundary
  | none => true

/-- The scan of `open_turn_start`, on the items from the last one back. The index
of an item is the number of items before it. -/
def openTurnScan : List TranscriptItem → Bool → Option (TurnId × Nat)
  | [], _ => none
  | item :: before, sawOpenTail =>
    match item with
    | .turnStarted turnId => some (turnId, before.length)
    | .turnFinished _ _ => none
    | .compactionSummary summary =>
      -- A summary root stands for the start of the turn it was written in.
      if sawOpenTail then some (summary.lastTurnId, before.length) else none
    | .userMessage _ | .daemonToolObservation _ | .assistantMessage _ | .toolCallStarted _ _
    | .toolResult _ => openTurnScan before true

def openTurnStart : Option (TurnId × Nat) :=
  openTurnScan items.reverse false

def assistantToolCalls : List ToolCall :=
  items.flatMap fun
    | .assistantMessage message => message.toolCalls
    | _ => []

def startedToolCalls : List ToolCall :=
  items.filterMap fun
    | .toolCallStarted _ toolCall => some toolCall
    | _ => none

def toolResults : List ToolResultMessage :=
  items.filterMap fun
    | .toolResult result => some result
    | _ => none

/-- The loop of `complete_open_tool_calls`: each call takes one matching start and
one matching result, and what it does not find is appended. -/
def completeToolCalls (turnId : TurnId) :
    List ToolCall → List ToolCall → List ToolResultMessage → List TranscriptItem
  | [], _, _ => []
  | toolCall :: rest, started, completed =>
    let isStart (start : ToolCall) : Bool :=
      start.id == toolCall.id && start.toolName == toolCall.toolName
    let isResult (result : ToolResultMessage) : Bool :=
      result.toolCallId == toolCall.id && result.toolName == toolCall.toolName
    let missingStart :=
      if started.any isStart then [] else [TranscriptItem.toolCallStarted turnId toolCall]
    let missingResult :=
      if completed.any isResult then []
      else [TranscriptItem.toolResult (ToolResultMessage.crashed toolCall.id toolCall.toolName)]
    missingStart ++ missingResult
      ++ completeToolCalls turnId rest (started.eraseP isStart) (completed.eraseP isResult)

def completeOpenToolCalls (turnStart : Nat) (turnId : TurnId) : List TranscriptItem :=
  let openItems := items.drop turnStart
  items ++ completeToolCalls turnId (assistantToolCalls openItems) (startedToolCalls openItems)
    (toolResults openItems)

def openTurnReadyToContinueItems : Option TurnId :=
  match openTurnStart items with
  | none => none
  | some (turnId, turnStart) =>
    let openItems := items.drop turnStart
    let toolCalls := assistantToolCalls openItems
    if toolCalls.isEmpty then none
    else if toolCalls.all (fun toolCall => (toolResults openItems).any fun result =>
        result.toolCallId == toolCall.id && result.toolName == toolCall.toolName) then
      some turnId
    else none

def openTurnReadyToContinue : Option TurnId :=
  openTurnReadyToContinueItems context.items

def closeOpenTurnItemsToBoundary (outcome : TurnOutcome) : List TranscriptItem :=
  match openTurnStart items with
  | none => items
  | some (turnId, turnStart) =>
    let items := completeOpenToolCalls items turnStart turnId
    if isTurnBoundaryItems items then items else items ++ [.turnFinished turnId outcome]

/-- `resize_with`: the replay lane is cut or padded to the items. -/
def resizeReplay (length : Nat) (replay : List (List ProviderReplayItem)) :
    List (List ProviderReplayItem) :=
  replay.take length ++ List.replicate (length - replay.length) []

def closeOpenTurnTo (outcome : TurnOutcome) (context : ModelContext) : ModelContext :=
  let items := closeOpenTurnItemsToBoundary context.items outcome
  { items, providerReplay := resizeReplay items.length context.providerReplay }

end ModelContext

end PiRelay.Session
