import PiRelay.AgentCore.Requests
import PiRelay.AgentSession.TranscriptStore

/-! Session-level work, its events, and the ledger of the requests that have left
the session and have not been accepted back. -/
namespace PiRelay.Session

open AgentVocab AgentCore

inductive SessionAction where
  | requestModel (actionId : ActionId) (turnId : TurnId) (modelContext : ModelContext)
      (contextLeafId : Option EntryId)
  | requestTool (actionId : ActionId) (turnId : TurnId) (toolCall : ToolCall)
  | cancelSessionWork
deriving DecidableEq

inductive SessionActionKind where
  | model
  | tool

inductive SessionEvent where
  | transcriptItemAppended (entryId : EntryId) (item : TranscriptItem)
  | actionRequested (action : SessionAction)
  | actionCompleted (kind : SessionActionKind) (id : String)
  | actionFailed (kind : SessionActionKind) (id : String) (error : String)

def completionTargetFromInput : AgentInput → Option CompletionTarget
  | .modelCompleted actionId turnId _ | .modelFailed actionId turnId _ =>
    some { actionId, turnId, tool := none }
  | .toolCompleted actionId turnId result =>
    some { actionId, turnId, tool := some { id := result.toolCallId, name := result.toolName } }
  | .interrupt | .steer _ | .followUp _ | .daemonObservation _ => none

def completionTargetFromSessionAction : SessionAction → Option CompletionTarget
  | .requestModel actionId turnId _ _ => some { actionId, turnId, tool := none }
  | .requestTool actionId turnId toolCall =>
    some { actionId, turnId, tool := some { id := toolCall.id, name := toolCall.toolName } }
  | .cancelSessionWork => none

namespace SessionAction

def matchesCompletion (action : SessionAction) (input : AgentInput) : Bool :=
  match completionTargetFromSessionAction action, completionTargetFromInput input with
  | some action, some input => action == input
  | _, _ => false

def isCancelSessionWork : SessionAction → Bool
  | .cancelSessionWork => true
  | _ => false

def isStart : SessionAction → Bool
  | .requestModel _ _ _ _ | .requestTool _ _ _ => true
  | .cancelSessionWork => false

end SessionAction

/-- A completion that was accepted and whose event waits for the transcript to
show it. -/
inductive RecordedCompletion where
  | modelCompleted (actionId : ActionId) (turnId : TurnId)
  | modelFailed (actionId : ActionId) (turnId : TurnId) (error : String)
  | toolCompleted (actionId : ActionId) (turnId : TurnId) (toolCallId : ToolCallId)
      (toolName : String)

namespace RecordedCompletion

def fromInput : AgentInput → Option RecordedCompletion
  | .modelCompleted actionId turnId _ => some (.modelCompleted actionId turnId)
  | .modelFailed actionId turnId error => some (.modelFailed actionId turnId error)
  | .toolCompleted actionId turnId result =>
    some (.toolCompleted actionId turnId result.toolCallId result.toolName)
  | .interrupt | .steer _ | .followUp _ | .daemonObservation _ => none

def target : RecordedCompletion → CompletionTarget
  | .modelCompleted actionId turnId | .modelFailed actionId turnId _ =>
    { actionId, turnId, tool := none }
  | .toolCompleted actionId turnId toolCallId toolName =>
    { actionId, turnId, tool := some { id := toolCallId, name := toolName } }

def acceptedBy (completion : RecordedCompletion) (items : List TranscriptItem) : Bool :=
  match completion with
  | .modelCompleted _ turnId =>
    let isAssistant : TranscriptItem → Bool
      | .assistantMessage _ => true
      | _ => false
    match items.findIdx? isAssistant with
    | none => false
    | some assistantIndex =>
      (items.drop (assistantIndex + 1)).findSome? TranscriptItem.turnId == some turnId
  | .modelFailed _ turnId _ => items.contains (.turnFinished turnId .crashed)
  | .toolCompleted _ _ toolCallId toolName => items.any fun
      | .toolResult result => result.toolCallId == toolCallId && result.toolName == toolName
      | _ => false

def shouldWaitForMoreItems (completion : RecordedCompletion) (items : List TranscriptItem)
    (pending : List CompletionTarget) : Bool :=
  match completion with
  | .toolCompleted _ turnId _ _ =>
    !(items.any fun
      | .turnFinished itemTurnId _ => itemTurnId == turnId
      | _ => false) && pending.any (·.turnId == turnId)
  | .modelCompleted _ _ | .modelFailed _ _ _ => false

def sessionEvent : RecordedCompletion → SessionEvent
  | .modelCompleted actionId _ => .actionCompleted .model (toString actionId)
  | .modelFailed actionId _ error => .actionFailed .model (toString actionId) error
  | .toolCompleted actionId _ _ _ => .actionCompleted .tool (toString actionId)

end RecordedCompletion

structure OutstandingActions where
  pending : List CompletionTarget := []
  completionEventsPendingTranscript : List RecordedCompletion := []

namespace OutstandingActions

variable (actions : OutstandingActions)

def isEmpty : Bool := actions.pending.isEmpty

def clear (_actions : OutstandingActions) : OutstandingActions := {}

def trackRequest (action : AgentAction) : OutstandingActions :=
  { actions with
    pending := actions.pending ++ (CompletionTarget.fromCoreAction action).toList }

def trackSessionAction (action : SessionAction) : OutstandingActions :=
  { actions with
    pending := actions.pending ++ (completionTargetFromSessionAction action).toList }

/-- The ledger once the completion is accepted; none when it matches no pending
request. -/
def acceptCompletion (input : AgentInput) : Option OutstandingActions :=
  match RecordedCompletion.fromInput input with
  | none => none
  | some completion =>
    if actions.pending.contains completion.target then
      some
        { pending := actions.pending.erase completion.target
          completionEventsPendingTranscript :=
            actions.completionEventsPendingTranscript ++ [completion] }
    else none

/-- The events of the accepted completions, and the ledger with those that wait. -/
def emitEventsAfterCoreAccepts (items : List TranscriptItem) :
    List SessionEvent × OutstandingActions :=
  let waiting := actions.completionEventsPendingTranscript
  ((waiting.filter (·.acceptedBy items)).map RecordedCompletion.sessionEvent,
    { actions with
      completionEventsPendingTranscript := waiting.filter fun completion =>
        !completion.acceptedBy items
          && completion.shouldWaitForMoreItems items actions.pending })

end OutstandingActions

end PiRelay.Session
