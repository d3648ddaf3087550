import PiRelay.AgentStore.SubagentControls
import PiRelay.Library.Table

/-! The delegations of a parent session and the sessions they are worked on in. A
delegation is created once for each launch, it ends through its barrier or through a
teardown, and every statement that moves it compares its attempt and its status. -/
namespace PiRelay.Store

open AgentVocab AgentCore Session
open Library (updateWhere)

inductive DelegationKind where
  | full
  | readonlyFanout
deriving DecidableEq

structure LaunchError where
  code : String
  message : String
deriving DecidableEq

structure DelegationRow where
  id : String
  parentSessionId : String
  launchKey : String
  launchShape : String
  workflow : Option String
  label : Option String
  kind : DelegationKind
  status : DelegationStatus
  attemptId : String
  teardownTarget : Option DelegationStatus
  launchError : Option LaunchError
  expectedSubagents : Int
deriving DecidableEq

/-- A session; a subagent names its delegation and its place in the launch. -/
structure SessionRow where
  id : String
  parentSessionId : Option String
  delegationId : Option String
  delegationSpawnIndex : Option Nat
  subagentType : Option SubagentType
  entries : List TranscriptStorageNode
  activeLeafId : Option EntryId
  actions : List MarkedAction
  mailbox : List MailboxRow
deriving DecidableEq

/-- Both tables; their rows are listed as they were created. -/
structure DelegationStore where
  delegations : List DelegationRow
  sessions : List SessionRow

namespace DelegationStatus

def isTerminal : DelegationStatus → Bool
  | .running | .cancelling => false
  | .done | .doneWithFailures | .cancelled | .failed => true

/-- The statuses that reserve capacity of the parent. -/
def isInFlight (status : DelegationStatus) : Bool := status == .running || status == .cancelling

end DelegationStatus

namespace SessionRow

variable (session : SessionRow)

def under (delegation : Delegation) : ChildSession where
  id := session.id
  parentSessionId := session.parentSessionId
  delegationId := session.delegationId
  subagentType := session.subagentType
  delegation := delegation
  entries := session.entries
  activeLeafId := session.activeLeafId
  actions := session.actions
  mailbox := session.mailbox

/-- The row after a transaction on the joined session. -/
def become (child : ChildSession) : SessionRow :=
  { session with
    entries := child.entries
    activeLeafId := child.activeLeafId
    actions := child.actions
    mailbox := child.mailbox }

/-- The input queue holds something to do. -/
def hasQueuedInputs : Bool := session.mailbox.any MailboxRow.isActive

def hasUnfinishedActions : Bool :=
  session.actions.any MarkedAction.isUnfinished

def activeLeafIsTurnBoundary : Bool :=
  match session.activeLeafId with
  | none => true
  | some leafId => session.entries.any fun entry => entry.id == leafId && entry.item.isTurnBoundary

/-- What a completion requires of every subagent. -/
def isIdle : Bool :=
  !session.hasUnfinishedActions && !session.hasQueuedInputs && session.activeLeafIsTurnBoundary

end SessionRow

/-- The columns that a subagent is joined to. -/
def DelegationRow.joined (row : DelegationRow) : Delegation where
  id := row.id
  parentSessionId := row.parentSessionId
  status := row.status

/-- Whether a statement fenced by the attempt means this row. -/
def DelegationRow.isAttempt (row : DelegationRow) (delegationId attemptId : String) : Bool :=
  row.id == delegationId && row.attemptId == attemptId

def maxReservedReadonlySlots : Int := 8

inductive CreateDelegationError where
  | invalid (message : String)
  | sessionNotFound
  | launchKeyConflict
  | fullConflict
  | readonlyCapacityExceeded
  | duplicateKey

def CreateDelegationError.message : CreateDelegationError → String
  | .invalid message => message
  | .sessionNotFound => "session not found"
  | .launchKeyConflict => "delegation launch key was already used with different parameters"
  | .fullConflict => "a full delegation is already running for this session"
  | .readonlyCapacityExceeded => "read-only delegation capacity exceeded"
  | .duplicateKey => "duplicate key value violates unique constraint"

structure CreateDelegationRequest where
  parentSessionId : String
  launchKey : String
  launchShape : String
  kind : DelegationKind
  workflow : Option String
  label : Option String
  expectedSubagents : Int

/-- The ids that are drawn for a new delegation. -/
structure DrawnDelegation where
  id : String
  attemptId : String

def CreateDelegationRequest.row (request : CreateDelegationRequest) (drawn : DrawnDelegation) :
    DelegationRow where
  id := drawn.id
  parentSessionId := request.parentSessionId
  launchKey := request.launchKey
  launchShape := request.launchShape
  workflow := request.workflow
  label := request.label
  kind := request.kind
  status := .running
  attemptId := drawn.attemptId
  teardownTarget := none
  launchError := none
  expectedSubagents := request.expectedSubagents

namespace DelegationStore

variable (store : DelegationStore)

def hasSession (sessionId : String) : Bool :=
  store.sessions.any (·.id == sessionId)

def inFlight (parentSessionId : String) (kind : DelegationKind) : List DelegationRow :=
  store.delegations.filter fun row =>
    row.parentSessionId == parentSessionId && row.status.isInFlight && row.kind == kind

def admitsKind (request : CreateDelegationRequest) : Except CreateDelegationError Unit :=
  let active := store.inFlight request.parentSessionId request.kind
  match request.kind with
  | .full => if active.isEmpty then .ok () else .error .fullConflict
  | .readonlyFanout =>
    if maxReservedReadonlySlots <
        (active.map DelegationRow.expectedSubagents).sum + request.expectedSubagents then
      .error .readonlyCapacityExceeded
    else .ok ()

/-- A launch that was admitted before is answered with the row it has. -/
def createDelegationIdempotent (request : CreateDelegationRequest)
    (drawn : DrawnDelegation) : Except CreateDelegationError (DelegationStore × DelegationRow) :=
  if request.expectedSubagents ≤ 0 then
    .error (.invalid "expected_subagents must be greater than zero")
  else if request.kind = .full ∧ request.expectedSubagents ≠ 1 then
    .error (.invalid "full delegations must have exactly one subagent")
  else if request.kind = .readonlyFanout
      ∧ maxReservedReadonlySlots < request.expectedSubagents then
    .error .readonlyCapacityExceeded
  else if !store.hasSession request.parentSessionId then .error .sessionNotFound
  else
    match store.delegations.find? fun row =>
        row.parentSessionId == request.parentSessionId && row.launchKey == request.launchKey with
    | some row =>
      if row.launchShape != request.launchShape then .error .launchKeyConflict
      else .ok (store, row)
    | none =>
      match store.admitsKind request with
      | .error error => .error error
      | .ok () =>
        if store.delegations.any (·.id == drawn.id) then .error .duplicateKey
        else
          let row := request.row drawn
          .ok ({ store with delegations := store.delegations ++ [row] }, row)

/-- The teardown cancels whatever the subagents have not consumed. -/
def cancelActiveDelegationChildInputs (row : DelegationRow) : DelegationStore :=
  { store with
    sessions := store.sessions.map fun session =>
      if session.delegationId == some row.id then
        session.become (session.under row.joined).cancelActiveDelegationChildInputs
      else session }

/-- An update of the one row that a statement admits, and what follows for its
subagents. -/
def moveDelegation (admits : DelegationRow → Bool)
    (change : DelegationRow → DelegationRow) : Option (DelegationStore × DelegationRow) :=
  match store.delegations.find? admits, updateWhere store.delegations admits change with
  | some row, some delegations => some ({ store with delegations }, change row)
  | _, _ => none

def beginDelegationTeardown
    (parentSessionId delegationId attemptId : String) (target : DelegationStatus) :
    Except String (DelegationStore × Bool) :=
  if target ≠ .cancelled ∧ target ≠ .failed then
    .error "delegation teardown target must be cancelled or failed"
  else if !store.hasSession parentSessionId then .error "session not found"
  else
    match store.moveDelegation
        (fun row => row.isAttempt delegationId attemptId
          && row.parentSessionId == parentSessionId && row.status == .running)
        (fun row => { row with status := .cancelling, teardownTarget := some target }) with
    | none => .ok (store, false)
    | some (moved, row) => .ok (moved.cancelActiveDelegationChildInputs row, true)

def failLaunch (error : LaunchError) (row : DelegationRow) : DelegationRow :=
  { row with
    status := if row.status = .running then .cancelling else row.status
    teardownTarget := if row.status = .running then some .failed else row.teardownTarget
    launchError := some (row.launchError.getD error) }

def beginFailedDelegationLaunch
    (parentSessionId delegationId attemptId : String) (error : LaunchError) :
    Except String (DelegationStore × Bool) :=
  if !store.hasSession parentSessionId then .error "session not found"
  else
    match store.moveDelegation
        (fun row => row.isAttempt delegationId attemptId
          && row.parentSessionId == parentSessionId
          && (row.status == .running
            || row.status == .cancelling && row.teardownTarget == some .failed
            || row.status == .failed))
        (failLaunch error) with
    | none => .ok (store, false)
    | some (moved, row) =>
      if row.status = .cancelling then .ok (moved.cancelActiveDelegationChildInputs row, true)
      else .ok (moved, false)

def subagents (delegationId : String) : List SessionRow :=
  store.sessions.filter (·.delegationId == some delegationId)

def finishDelegationTeardown (delegationId attemptId : String)
    (target : DelegationStatus) : DelegationStore × Bool :=
  match store.moveDelegation
      (fun row => row.isAttempt delegationId attemptId && row.status == .cancelling
        && row.teardownTarget == some target
        && !(store.subagents row.id).any SessionRow.hasQueuedInputs)
      (fun row => { row with status := target, teardownTarget := none }) with
  | none => (store, false)
  | some (moved, _) => (moved, true)

/-- The full set of subagents exists, and all of them are idle. -/
def readyToFinish (delegationId : String) (expectedSubagents : Int) : Bool :=
  let subagents := store.subagents delegationId
  (subagents.length : Int) == expectedSubagents && !subagents.isEmpty
    && subagents.all SessionRow.isIdle

def finishDelegation (delegationId attemptId : String)
    (status : DelegationStatus) : DelegationStore × Bool :=
  let isRunning := fun row : DelegationRow =>
    row.isAttempt delegationId attemptId && row.status == .running
  match store.delegations.find? isRunning with
  | none => (store, false)
  | some row =>
    if !store.readyToFinish delegationId row.expectedSubagents then (store, false)
    else
      match store.moveDelegation isRunning fun row => { row with status } with
      | none => (store, false)
      | some (moved, _) => (moved, true)

end DelegationStore

end PiRelay.Store
