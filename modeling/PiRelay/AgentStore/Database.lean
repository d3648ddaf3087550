import PiRelay.AgentSession.Session

/-! The rows of one session: its transcript entries and active leaf, its actions
and its queued inputs. Rows are never deleted, so an action or a queued input is
named by its position; the attempt of an action is the row itself. Every
operation is one transaction. -/
namespace PiRelay.Store

open AgentVocab AgentCore Session

abbrev RowId := Nat

inductive ActionKind where
  | model
  | tool
  | compaction
deriving DecidableEq

inductive ActionStatus where
  | pending
  | blocked
  | running
  | completed
  | error
  | interrupted
  | stale
deriving DecidableEq

def ActionStatus.isUnfinished : ActionStatus → Bool
  | .pending | .blocked | .running => true
  | .completed | .error | .interrupted | .stale => false

/-- What a row keeps to be dispatched again. A compaction names the model action
it blocks. -/
inductive ActionPayload where
  | model (contextLeafId : Option EntryId)
  | tool (toolCall : ToolCall)
  | compaction (blockedModel : RowId)
deriving DecidableEq

def ActionPayload.kind : ActionPayload → ActionKind
  | .model _ => .model
  | .tool _ => .tool
  | .compaction _ => .compaction

structure ActionRow where
  status : ActionStatus
  actionId : ActionId
  turnId : TurnId
  payload : ActionPayload
deriving DecidableEq

namespace ActionRow

def isUnfinished (row : ActionRow) : Bool := row.status.isUnfinished

def setStatus (status : ActionStatus) (row : ActionRow) : ActionRow := { row with status }

def finish (status : ActionStatus) (row : ActionRow) : ActionRow :=
  if row.isUnfinished then row.setStatus status else row

/-- The completion the core waits for while the row is unfinished. -/
def target (row : ActionRow) : Option CompletionTarget :=
  match row.payload with
  | .model _ => some { actionId := row.actionId, turnId := row.turnId, tool := none }
  | .tool toolCall =>
    some
      { actionId := row.actionId
        turnId := row.turnId
        tool := some { id := toolCall.id, name := toolCall.toolName } }
  | .compaction _ => none

end ActionRow

inductive InputPriority where
  | steer
  | followUp
deriving DecidableEq

inductive QueuedInputContent where
  | userMessage (message : UserMessage)
  | daemonToolObservation (observation : DaemonToolObservation)
deriving DecidableEq

def QueuedInputContent.item : QueuedInputContent → TranscriptItem
  | .userMessage message => .userMessage message
  | .daemonToolObservation observation => .daemonToolObservation observation

inductive QueuedInputStatus where
  | queued
  | consumed
  | cancelled
deriving DecidableEq

structure QueuedInput where
  priority : InputPriority
  content : QueuedInputContent
  status : QueuedInputStatus
deriving DecidableEq

structure Database where
  entries : List TranscriptStorageNode := []
  activeLeafId : Option EntryId := none
  actions : List ActionRow := []
  queuedInputs : List QueuedInput := []

/-- What a compaction knows about the model action it blocks. -/
structure CompactionJob where
  actionRow : RowId
  blockedModel : RowId
  blockedActionId : ActionId
  turnId : TurnId
deriving DecidableEq

structure ActionUpdate where
  row : RowId
  status : ActionStatus

structure OutputBatch where
  entries : List TranscriptStorageNode
  activeLeafId : Option EntryId
  activeLeafUnchanged : Bool
  sessionEvents : List SessionEvent
  actions : List SessionAction
  actionUpdate : Option ActionUpdate
  consumedInput : Option RowId

def OutputBatch.hasDurableObligations (batch : OutputBatch) : Bool :=
  !batch.entries.isEmpty || !batch.activeLeafUnchanged || !batch.sessionEvents.isEmpty
    || !batch.actions.isEmpty || batch.actionUpdate.isSome || batch.consumedInput.isSome

structure PersistedAction where
  row : RowId
  action : SessionAction
deriving DecidableEq

def actionEventMatchesRow (row : ActionRow) (kind : SessionActionKind) (id : String) : Bool :=
  (match kind with
    | .model => row.payload.kind == .model
    | .tool => row.payload.kind == .tool) && id == toString row.actionId

/-- The status a completed row gets. An explicit error stands; otherwise the last
event of the batch that reports the action decides. -/
def completedStatus (row : ActionRow) (explicit : ActionStatus) (events : List SessionEvent) :
    ActionStatus :=
  if explicit = .error then .error
  else
    events.foldl
      (fun status event =>
        match event with
        | .actionCompleted kind id =>
          if actionEventMatchesRow row kind id then .completed else status
        | .actionFailed kind id _ => if actionEventMatchesRow row kind id then .error else status
        | _ => status)
      explicit

namespace Database

variable (db : Database)

def transcriptStore : TranscriptStore where
  nodes := db.entries
  activeLeafId := db.activeLeafId

/-- The context rebuilt from the rows along the parent chain of a leaf. -/
def modelContextForLeaf (leafId : Option EntryId) : ModelContext :=
  ({ nodes := db.entries, activeLeafId := leafId } : TranscriptStore).modelContext

def activeLeafIsTurnBoundary : Bool := db.transcriptStore.isTurnBoundary

def storedSession : StoredSession where
  sessionId := ""
  activeLeafId := db.activeLeafId
  entries := db.entries

def insertEntry (entry : TranscriptStorageNode) : Database :=
  if db.entries.any (·.id == entry.id) then db else { db with entries := db.entries ++ [entry] }

variable (entries : List TranscriptStorageNode)

def insertEntries : Database :=
  entries.foldl insertEntry db

def hasUnfinishedActions : Bool := db.actions.any (·.isUnfinished)

variable (row : RowId)

def rowHasStatus (status : ActionStatus) : Bool :=
  match db.actions[row]? with
  | none => false
  | some action => action.status == status

def actionCanComplete : Bool := db.rowHasStatus row .running

def isUnfinished : Bool :=
  match db.actions[row]? with
  | none => false
  | some action => action.isUnfinished

def modifyAction (change : ActionRow → ActionRow) : Database :=
  { db with actions := db.actions.modify row change }

def finishUnfinished (status : ActionStatus) : Database :=
  { db with actions := db.actions.map (ActionRow.finish status) }

def cancelUnfinishedSessionWork : Database := db.finishUnfinished .interrupted

def markUnfinishedActionsStale : Database := db.finishUnfinished .stale

/-- On boot. The pending actions of a running delegation's member are kept. -/
def markAllUnfinishedActionsStale (delegated : Bool) : Database :=
  { db with
    actions := db.actions.map fun row =>
      if delegated && row.status == .pending then row else row.finish .stale }

def markActionStale : Database :=
  db.modifyAction row (ActionRow.finish .stale)

def failUnfinishedModelAction : Database :=
  db.modifyAction row (ActionRow.finish .error)

def claimPendingAction : Option Database :=
  if db.rowHasStatus row .pending then some (db.modifyAction row (.setStatus .running)) else none

def blockModelActionForCompaction (expected : ActionStatus) : Option (Database × CompactionJob) :=
  match db.actions[row]? with
  | none => none
  | some action =>
    if action.status == expected && action.payload.kind == .model then
      let blocked := db.modifyAction row (.setStatus .blocked)
      some
        ({ blocked with
          actions := blocked.actions ++
            [{ status := .running, actionId := 0, turnId := 0, payload := .compaction row }] },
          { actionRow := blocked.actions.length
            blockedModel := row
            blockedActionId := action.actionId
            turnId := action.turnId })
    else none

def failCompactionAction (job : CompactionJob) : Option Database :=
  if db.isUnfinished job.actionRow then
    some ((db.failUnfinishedModelAction job.blockedModel).modifyAction job.actionRow
      (.finish .error))
  else none

def pendingActionsForDispatch : List PersistedAction :=
  (db.actions.zipIdx.filter fun (row, _) => row.status == .pending).filterMap fun (row, id) =>
    match row.payload with
    | .model contextLeafId =>
      some
        { row := id
          action := .requestModel row.actionId row.turnId (db.modelContextForLeaf contextLeafId)
            contextLeafId }
    | .tool toolCall => some { row := id, action := .requestTool row.actionId row.turnId toolCall }
    | .compaction _ => none

def isQueued (input : RowId) : Bool :=
  match db.queuedInputs[input]? with
  | none => false
  | some queued => queued.status == .queued

def hasQueuedInputs : Bool := db.queuedInputs.any (·.status == .queued)

def enqueueUserInput (priority : InputPriority) (content : QueuedInputContent) : Database :=
  { db with queuedInputs := db.queuedInputs ++ [{ priority, content, status := .queued }] }

def setInputStatus (input : RowId) (status : QueuedInputStatus) : Database :=
  { db with
    queuedInputs := db.queuedInputs.modify input fun queued => { queued with status } }

def cancelQueuedInput (input : RowId) : Database :=
  if db.isQueued input then db.setInputStatus input .cancelled else db

def consumeInput : Option RowId → Option Database
  | none => some db
  | some input => if db.isQueued input then some (db.setInputStatus input .consumed) else none

def completeAction (events : List SessionEvent) : Option ActionUpdate → Option Database
  | none => some db
  | some update =>
    match db.actions[update.row]? with
    | none => none
    | some row =>
      if row.status == .pending || row.status == .running then
        some (db.modifyAction update.row
          (.setStatus (completedStatus row update.status events)))
      else none

/-- Record one action of the batch: a request becomes a pending row, a cancel ends
every unfinished row, those of this batch included. -/
def recordAction (recorded : Database × List PersistedAction) (action : SessionAction) :
    Database × List PersistedAction :=
  let (db, dispatch) := recorded
  match action with
  | .cancelSessionWork => (db.cancelUnfinishedSessionWork, dispatch)
  | .requestModel actionId turnId _ contextLeafId =>
    ({ db with
      actions := db.actions ++
        [{ status := .pending, actionId, turnId, payload := .model contextLeafId }] },
      dispatch ++ [{ row := db.actions.length, action }])
  | .requestTool actionId turnId toolCall =>
    ({ db with
      actions := db.actions ++
        [{ status := .pending, actionId, turnId, payload := .tool toolCall }] },
      dispatch ++ [{ row := db.actions.length, action }])

/-- The first new entry has to hang on the current leaf of a started transcript. -/
def extendsActiveLeaf : Bool :=
  match entries with
  | [] => true
  | first :: _ => db.entries.isEmpty || db.activeLeafId == first.parentId

def persistOutputs (batch : OutputBatch) : Option (Database × List PersistedAction) :=
  if !db.extendsActiveLeaf batch.entries then none
  else
    let inserted := db.insertEntries batch.entries
    match ({ inserted with activeLeafId := batch.activeLeafId }).consumeInput
        batch.consumedInput with
    | none => none
    | some consumed =>
      match consumed.completeAction batch.sessionEvents batch.actionUpdate with
      | none => none
      | some completed => some (batch.actions.foldl recordAction (completed, []))

/-- Close an abandoned turn: the missing entries, the new leaf, and every
unfinished action stale. -/
def recoverSession (activeLeafId : Option EntryId) : Database :=
  { (db.insertEntries entries).markUnfinishedActionsStale with activeLeafId }

end Database

end PiRelay.Store
