import PiRelay.AgentStore.CompactionJobs
import PiRelay.AgentStore.ControlPhases

/-! The action rows of one session with their results and their compaction jobs, and the
transactions that write them. A statement over all sessions does to each of them what it
does to this one. -/
namespace PiRelay.Store

open AgentVocab AgentCore Session
open Library (Machine)

/-- What a row keeps of how its action ended, or of what it waits for. -/
inductive ActionResult where
  | reported (result : String)
  | error (message : String)
  | reason (reason : String)
  | control (reason controlInputId : String)
  | blockedByCompaction (actionRowId : String) (reason : Option String)
      (contextTokens autoLimitTokens : Option Nat)
  | compacted (newRootId activeLeafId sourceSessionId : String) (sourceLeafId : EntryId)
      (trigger : CompactionTrigger) (scope : CompactionScope)
deriving DecidableEq

def ActionResult.compaction : ActionResult → Option String
  | .blockedByCompaction actionRowId _ _ _ => some actionRowId
  | _ => none

/-- An action row with its result; a compaction has its job in its payload. -/
structure RecordedAction where
  row : MarkedAction
  result : Option ActionResult
  job : Option StoredCompactionJob
deriving DecidableEq

namespace RecordedAction

variable (action : RecordedAction)

def id : String := action.row.id

def attemptId : String := action.row.attemptId

def status : ActionStatus := action.row.status

def isUnfinished : Bool := action.status.isUnfinished

def isModel : Bool := action.row.isModel

def isCompaction : Bool :=
  action.row.action.payload.kind == .compaction

def inserted (row : MarkedAction) : RecordedAction where
  row := row
  result := none
  job := none

variable (job : StoredCompactionJob)

/-- A running compaction, without a turn and with the action id zero. The row that its
payload would name is in its job. -/
def ofJob : RecordedAction where
  row :=
    { id := job.actionRowId
      attemptId := job.attemptId
      action := { status := .running, actionId := 0, turnId := 0, payload := .compaction 0 }
      postCompactionDispatch := none }
  result := none
  job := some job

def settle (status : ActionStatus) (result : ActionResult) : RecordedAction :=
  { action with row := action.row.settle status, result := some result }

def finish (status : ActionStatus) (result : ActionResult) : RecordedAction :=
  { action with
    row := { action.row with action := action.row.action.setStatus status }
    result := some result }

/-- The result stays as it is. -/
def withRow (row : MarkedAction) : RecordedAction :=
  { action with row }

/-- The statement that completes an action. The result of an explicit error stands;
otherwise the last event that reports a failure gives it. -/
def completedResult (update : LeasedActionUpdate) (result : ActionResult)
    (events : List SessionEvent) : ActionResult :=
  if update.status = .error then result
  else
    events.foldl
      (fun result event =>
        match event with
        | .actionFailed kind id message =>
          if actionEventMatchesRow action.row.action kind id then .error message else result
        | _ => result)
      result

def complete (update : LeasedActionUpdate) (result : ActionResult)
    (events : List SessionEvent) (nowMs : Nat) : RecordedAction :=
  if action.row.canComplete update nowMs then
    action.settle (completedStatus action.row.action update.status events)
      (action.completedResult update result events)
  else action

def cancel (reason : String) : RecordedAction :=
  if action.isUnfinished then action.settle .interrupted (.reason reason) else action

def markUnfinishedStale : RecordedAction :=
  action.withRow action.row.markUnfinishedActionsStale

def interruptCaptured (control : MailboxRow) (reason : String) : RecordedAction :=
  if action.isUnfinished && control.captured action.row then
    action.finish .interrupted (.control reason control.id)
  else action

def block (request : BlockRequest) (job : StoredCompactionJob)
    (autoLimitTokens : Option Nat) (nowMs : Nat) : RecordedAction :=
  if action.row.canBlock request nowMs then
    action.settle .blocked
      (.blockedByCompaction job.actionRowId job.trigger.reason job.tokensBefore autoLimitTokens)
  else action

def isNamedBy : CompactionScope → Bool
  | .boundary _ => false
  | .midTurn _ _ _ rowId attemptId => action.row.isAttempt rowId attemptId && action.isModel

def isUnfinishedCompaction : Bool :=
  action.row.isAttempt job.actionRowId job.attemptId && action.isCompaction && action.isUnfinished

/-- The model action goes on with what has been installed; its result is cleared. -/
def release (scope : CompactionScope) (installedLeafId : EntryId) : RecordedAction :=
  if action.isNamedBy scope && action.status == .blocked then
    { action with row := action.row.releaseForDispatch installedLeafId, result := none }
  else action

def completeCompaction (result : ActionResult) : RecordedAction :=
  if action.row.isAttempt job.actionRowId job.attemptId then action.finish .completed result
  else action

def finishCompaction (status : ActionStatus) (error : String) : RecordedAction :=
  if action.row.isAttempt job.actionRowId job.attemptId && action.isUnfinished then
    action.finish status (.error error)
  else action

def failBlocked (scope : CompactionScope) (error : String) : RecordedAction :=
  if action.isNamedBy scope && action.isUnfinished then
    action.settle .error (.error ("compaction failed before model dispatch: " ++ error))
  else action

def markRunning (actionRowId attemptId : String) : RecordedAction :=
  if action.row.isAttempt actionRowId attemptId && action.status == .pending then
    action.withRow { action.row with action := action.row.action.setStatus .running }
  else action

/-- The marker is still the one that the claim has read. -/
def isCorruptDispatch (intent : PostCompactionDispatchIntent)
    (fence : PostCompactionDispatchFence) : Bool :=
  action.row.isAttempt intent.rowId intent.attemptId && action.isModel
    && action.status == fence.status && action.row.postCompactionDispatch == some fence.marker
    && match fence.lease with
      | none => true
      | some lease =>
        match fence.marker.lease with
        | none => false
        | some stored =>
          stored.ownerId == some lease.ownerId && stored.generation == some lease.generation

def failCorrupt (intent : PostCompactionDispatchIntent)
    (fence : PostCompactionDispatchFence) (error : String) : RecordedAction :=
  if action.isCorruptDispatch intent fence then action.settle .error (.error error) else action

def failModel (actionRowId attemptId : String)
    (lease : Option PostCompactionDispatchLease) (error : String) (nowMs : Nat) : RecordedAction :=
  match action.row.failUnfinishedModelAction actionRowId attemptId lease nowMs with
  | none => action
  | some _ => action.settle .error (.error error)

end RecordedAction

/-- The session of the rows. What it lists as its actions is left open here, `child` puts
the rows in their place. -/
structure RecordedSession where
  home : ChildSession
  actions : List RecordedAction

/-- What is drawn and counted for a new compaction. -/
structure DrawnCompaction where
  actionRowId : String
  attemptId : String
  tokensBefore : Option Nat
  autoLimitTokens : Option Nat
  lastTurnId : TurnId
  turnStartedAtMs : Option Nat
  trigger : CompactionTrigger

namespace RecordedSession

variable (session : RecordedSession)

def child : ChildSession :=
  { session.home with actions := session.actions.map RecordedAction.row }

def write (change : RecordedAction → RecordedAction) : RecordedSession :=
  { session with actions := session.actions.map change }

def recordAction (actions : List RecordedAction) : Option MarkedAction → List RecordedAction
  | none => actions.map (·.cancel "session interrupted")
  | some row => actions ++ [.inserted row]

/-- What an output transaction does to the rows there are, up to its new actions. -/
def outputChange (outputs : ChildOutputBatch) (result : ActionResult)
    (nowMs : Nat) (action : RecordedAction) : RecordedAction :=
  let completed :=
    match outputs.actionUpdate with
    | none => action
    | some update => action.complete update result outputs.sessionEvents nowMs
  match outputs.controlInterruptInputId.bind fun inputId =>
      (session.child.completeOutputs outputs nowMs).bind fun completed =>
        completed.mailbox.find? (·.id == inputId) with
  | none => completed
  | some control => completed.interruptCaptured control "combined subagent control"

def persistOutputs (outputs : ChildOutputBatch) (result : ActionResult)
    (nowMs : Nat) : Option RecordedSession :=
  (session.child.persistOutputs outputs nowMs).map fun after =>
    { home := after
      actions := outputs.actions.foldl recordAction
        (session.actions.map (session.outputChange outputs result nowMs)) }

def markUnfinishedActionsStale : RecordedSession :=
  session.write (·.markUnfinishedStale)

def recoverSession (entries : List TranscriptStorageNode)
    (activeLeafId : Option EntryId) : RecordedSession :=
  { session.markUnfinishedActionsStale with
    home := { session.home.insertEntries entries with activeLeafId } }

def cancelUnfinishedSessionWork (reason : String) : RecordedSession :=
  session.write (·.cancel reason)

def delegationRuns : Bool :=
  session.home.delegationId.isSome && session.home.delegation.status == .running

def hasPendingControl : Bool :=
  session.home.mailbox.any fun row =>
    row.isActive && row.priority == .steer && row.isScopedControl
      && row.controlPhase == some .pendingInterrupt

/-- At the start of a daemon. What a running delegation waits for is left. -/
def markAllUnfinishedActionsStale : RecordedSession :=
  session.write fun action =>
    if action.status == .pending && session.delegationRuns
        || session.hasPendingControl && session.delegationRuns then action
    else action.markUnfinishedStale

def applyControlAtBoundary (inputId : String) : Except String RecordedSession :=
  (session.child.applySubagentControlInterruptAtBoundary inputId).map fun (result, after) =>
    match result, session.home.mailbox.find? fun row =>
        row.isControlIn inputId .pendingInterrupt && row.controlInterrupt with
    | .applied _, some control =>
      { home := after
        actions := session.actions.map
          (·.interruptCaptured control "subagent control at turn boundary") }
    | _, _ => { session with home := after }

def blockingJob (model : RecordedAction) (sourceLeafId : EntryId)
    (drawn : DrawnCompaction) : StoredCompactionJob where
  actionRowId := drawn.actionRowId
  attemptId := drawn.attemptId
  sourceSessionId := session.home.id
  sourceLeafId := sourceLeafId
  tokensBefore := drawn.tokensBefore
  lastTurnId := drawn.lastTurnId
  turnStartedAtMs := drawn.turnStartedAtMs
  trigger := drawn.trigger
  scope := .midTurn sourceLeafId model.row.action.turnId model.row.action.actionId model.id
    model.attemptId

def blockModelActionForCompaction (request : BlockRequest)
    (drawn : DrawnCompaction) (nowMs laterMs : Nat) : Except String RecordedSession :=
  match session.actions.find? (·.row.canBlock request nowMs) with
  | none => .error (request.expectedStatus.asStr ++ " model action not found: " ++ request.rowId)
  | some model =>
    match model.row.modelActionContextLeafId with
    | none => .error "model action has no compaction source leaf"
    | some sourceLeafId =>
      match request.sourceRead with
      | .error message => .error message
      | .ok () =>
        let job := session.blockingJob model sourceLeafId drawn
        if session.actions.any (·.row.canBlock request laterMs) then
          .ok
            { session with
              actions :=
                session.actions.map (·.block request job drawn.autoLimitTokens laterMs)
                  ++ [.ofJob job] }
        else
          .error
            (request.expectedStatus.asStr ++ " model action was not blocked: "
              ++ request.rowId)

/-- A compaction at a turn boundary; the reading of its source comes from outside. -/
def createCompactionAction (drawn : DrawnCompaction)
    (sourceRead : Except String Unit) : Except String RecordedSession :=
  match session.home.activeLeafId with
  | none => .error "cannot compact an empty session"
  | some sourceLeafId =>
    sourceRead.map fun () =>
      { session with
        actions := session.actions ++
          [.ofJob
            { actionRowId := drawn.actionRowId
              attemptId := drawn.attemptId
              sourceSessionId := session.home.id
              sourceLeafId
              tokensBefore := drawn.tokensBefore
              lastTurnId := drawn.lastTurnId
              turnStartedAtMs := none
              trigger := drawn.trigger
              scope := .boundary sourceLeafId }] }

variable (job : StoredCompactionJob)

def finishCompactionError (status : ActionStatus) (error : String) : RecordedSession :=
  session.write (·.finishCompaction job status error)

/-- The job can install its result: its model action still waits, or it stands at a
boundary that is still the active leaf. -/
def canInstall : Bool :=
  match job.scope with
  | .boundary _ => session.home.activeLeafId == some job.sourceLeafId
  | .midTurn _ _ _ _ _ =>
    session.actions.any fun action => action.isNamedBy job.scope && action.status == .blocked

def completeCompactionAction
    (completion : CompactionCompletion) (ids : Nat → EntryId) (rootTimestampMs : Nat) :
    RecordedSession :=
  if !session.actions.any (·.isUnfinishedCompaction job) then session
  else if !session.canInstall job then
    session.finishCompactionError job .stale
      "compaction can no longer install because its source changed or its model action is no longer blocked"
  else
    let leafId := completion.installedActiveLeafId ids
    let result := ActionResult.compacted (ids 0) leafId job.sourceSessionId job.sourceLeafId
      job.trigger job.scope
    { home :=
        { session.home.insertEntries (job.installedEntries completion ids rootTimestampMs) with
          activeLeafId := some leafId }
      actions := session.actions.map fun action =>
        (action.release job.scope leafId).completeCompaction job result }

def failCompactionAction (error : String) : RecordedSession :=
  if !session.actions.any (·.isUnfinishedCompaction job) then session
  else
    session.write fun action =>
      (action.failBlocked job.scope error).finishCompaction job .error error

end RecordedSession

inductive ActionOperation where
  | persistOutputs (outputs : ChildOutputBatch) (result : ActionResult)
  | recoverSession (entries : List TranscriptStorageNode) (activeLeafId : Option EntryId)
  | blockModelActionForCompaction (request : BlockRequest) (drawn : DrawnCompaction) (laterMs : Nat)
  | createCompactionAction (drawn : DrawnCompaction) (sourceRead : Except String Unit)
  | completeCompactionAction (job : StoredCompactionJob) (completion : CompactionCompletion)
      (ids : Nat → EntryId) (rootTimestampMs : Nat)
  | failCompactionAction (job : StoredCompactionJob) (error : String)
  | claimPendingModelAction (actionRowId attemptId : String)
  | claimPostCompactionModelAction (intent : PostCompactionDispatchIntent) (leaseDurationMs : Nat)
      (context : ClaimContext)
  | renewPostCompactionDispatchLease (actionRowId attemptId : String)
      (lease : PostCompactionDispatchLease) (leaseDurationMs : Nat)
  | markActionRunning (actionRowId attemptId : String)
  | markActionStale (actionRowId attemptId : String) (lease : Option PostCompactionDispatchLease)
  | failCorruptPostCompactionModelAction (intent : PostCompactionDispatchIntent)
      (fence : PostCompactionDispatchFence) (error : String)
  | failUnfinishedModelAction (actionRowId attemptId : String)
      (lease : Option PostCompactionDispatchLease) (error : String)
  | cancelUnfinishedSessionWork (reason : String)
  | markUnfinishedActionsStale
  | markAllUnfinishedActionsStale
  | applySubagentControlInterruptAtBoundary (inputId : String)
  | elsewhere (home : ChildSession)

namespace RecordedSession

variable (session : RecordedSession)

/-- A transaction that fails leaves the session. What goes on elsewhere in the session
does not touch its actions. -/
def perform (nowMs : Nat) : ActionOperation → RecordedSession
  | .persistOutputs outputs result => (session.persistOutputs outputs result nowMs).getD session
  | .recoverSession entries activeLeafId => session.recoverSession entries activeLeafId
  | .blockModelActionForCompaction request drawn laterMs =>
    (session.blockModelActionForCompaction request drawn nowMs laterMs).toOption.getD session
  | .createCompactionAction drawn sourceRead =>
    (session.createCompactionAction drawn sourceRead).toOption.getD session
  | .completeCompactionAction job completion ids rootTimestampMs =>
    session.completeCompactionAction job completion ids rootTimestampMs
  | .failCompactionAction job error => session.failCompactionAction job error
  | .claimPendingModelAction actionRowId attemptId =>
    session.write fun action =>
      action.withRow ((action.row.claimPendingModelAction actionRowId attemptId).getD action.row)
  | .claimPostCompactionModelAction intent leaseDurationMs context =>
    session.write fun action =>
      action.withRow
        (action.row.claimPostCompactionModelAction intent leaseDurationMs nowMs
          { context with activeLeafId := session.home.activeLeafId }).1
  | .renewPostCompactionDispatchLease actionRowId attemptId lease leaseDurationMs =>
    session.write fun action =>
      action.withRow
        (((action.row.renewPostCompactionDispatchLease actionRowId attemptId lease leaseDurationMs
          nowMs).toOption.bind (·)).getD action.row)
  | .markActionRunning actionRowId attemptId => session.write (·.markRunning actionRowId attemptId)
  | .markActionStale actionRowId attemptId lease =>
    session.write fun action =>
      action.withRow
        ((action.row.markActionStale actionRowId attemptId lease nowMs).getD action.row)
  | .failCorruptPostCompactionModelAction intent fence error =>
    session.write (·.failCorrupt intent fence error)
  | .failUnfinishedModelAction actionRowId attemptId lease error =>
    session.write (·.failModel actionRowId attemptId lease error nowMs)
  | .cancelUnfinishedSessionWork reason => session.cancelUnfinishedSessionWork reason
  | .markUnfinishedActionsStale => session.markUnfinishedActionsStale
  | .markAllUnfinishedActionsStale => session.markAllUnfinishedActionsStale
  | .applySubagentControlInterruptAtBoundary inputId =>
    (session.applyControlAtBoundary inputId).toOption.getD session
  | .elsewhere home => { session with home }

/-- What the callers see to. An update ends its action; a new action is a pending request;
a job is the one of its row; a corrupt marker is one that a claim has read. -/
def Promised : ActionOperation → Prop
  | .persistOutputs outputs _ =>
    (∀ update ∈ outputs.actionUpdate, update.status.isUnfinished = false) ∧
      ∀ row, some row ∈ outputs.actions →
        row.status = .pending ∧ row.action.payload.kind ≠ .compaction
  | .completeCompactionAction job _ _ _ | .failCompactionAction job _ =>
    ∀ action ∈ session.actions, action.id = job.actionRowId → action.job = some job
  | .failCorruptPostCompactionModelAction _ fence _ =>
    fence.status = .pending ∨ fence.status = .running
  | _ => True

/-- The row ids are the key of the table. -/
def Keyed : Prop := (session.actions.map RecordedAction.id).Nodup

instance (session : RecordedSession) : Decidable session.Keyed :=
  inferInstanceAs (Decidable (session.actions.map RecordedAction.id).Nodup)

end RecordedSession

def actionRuns : Machine RecordedSession (Nat × ActionOperation) where
  initial session := session.actions = []
  step session timed after :=
    session.Promised timed.2 ∧ after = session.perform timed.1 timed.2 ∧ after.Keyed

end PiRelay.Store
