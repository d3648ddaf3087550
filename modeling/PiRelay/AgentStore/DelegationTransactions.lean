import PiRelay.AgentStore.Delegations
import PiRelay.AgentStore.InputQueue
import PiRelay.Library.Interleaving

/-! The transactions around a delegation, statement by statement. Each one reads what
is committed when its statement runs, keeps the rows it has locked until it ends, and
commits all of its effects at once. The launch of a delegation and its cancellation
also exclude each other through an advisory lock. -/
namespace PiRelay.Store

open AgentVocab AgentCore Session
open Library (Program)

inductive StoreLock where
  | session (id : String)
  | delegation (id : String)
  | launch (delegationId : String)
deriving DecidableEq

structure UserInput where
  sessionId : String
  priority : InputPriority
  content : QueuedInputContent
  clientInputId : Option String
  context : ControlContext

/-- The work on a session that needs no other lock than its own. An edit that has seen another
revision of the queue is refused, and leaves the session. -/
inductive SessionWork where
  | promote (inputId : String) (promotedAt : Nat)
  | update (inputId : String) (content : UserMessage)
  | cancel (inputId : String)
  | reorder (inputIds : List String)
  | resetConsuming
  | resetConsumingInput (inputId claimId : String)
  | persist (batch : ChildOutputBatch) (nowMs : Nat)
  | markReady (inputId : String)
  | skipStale (inputId : String)
  | applyAtBoundary (inputId : String)

/-- The queue of a session; its revisions do not matter here. -/
def ChildSession.queue (child : ChildSession) : SessionQueue := ⟨child, 0, 0, 0⟩

/-- A transaction that fails leaves the session. -/
def SessionWork.run (work : SessionWork) (child : ChildSession) : ChildSession :=
  match work with
  | .promote inputId promotedAt => child.promoteQueuedInput inputId promotedAt
  | .update inputId content =>
    match child.queue.updateQueuedInput inputId content none with
    | .ok (queue, _) => queue.session
    | .error _ => child
  | .cancel inputId => child.cancelQueuedInput inputId
  | .reorder inputIds => (child.queue.reorderQueuedFollowUps inputIds none).1.session
  | .resetConsuming => child.resetAbandonedConsumingInputs
  | .resetConsumingInput inputId claimId =>
    (child.queue.resetConsumingInput inputId claimId).session
  | .persist batch nowMs => (child.persistOutputs batch nowMs).getD child
  | .markReady inputId => (child.markSubagentControlReady inputId).toOption.getD child
  | .skipStale inputId => (child.skipStaleSubagentControlInterrupt inputId).toOption.getD child
  | .applyAtBoundary inputId =>
    ((child.applySubagentControlInterruptAtBoundary inputId).map Prod.snd).toOption.getD child

/-- What is drawn and copied for a new subagent. -/
structure ContextFork where
  childSessionId : String
  subagentType : SubagentType
  entries : List TranscriptStorageNode
  activeLeafId : Option EntryId
  inputId : String
  task : UserMessage
  createdAt : Nat

inductive ClosingCause where
  | teardown (target : DelegationStatus) (asked : target = .cancelled ∨ target = .failed)
  | failedLaunch (error : LaunchError)

/-- A teardown as its transaction asks for it. -/
structure ClosingClaim where
  parentSessionId : String
  delegationId : String
  attemptId : String
  cause : ClosingCause

def ClosingClaim.admits (claim : ClosingClaim) (row : DelegationRow) : Bool :=
  row.isAttempt claim.delegationId claim.attemptId
    && row.parentSessionId == claim.parentSessionId
    && match claim.cause with
      | .teardown _ _ => row.status == .running
      | .failedLaunch _ =>
        row.status == .running || row.status == .cancelling && row.teardownTarget == some .failed
          || row.status == .failed

def ClosingClaim.change (claim : ClosingClaim) (row : DelegationRow) : DelegationRow :=
  match claim.cause with
  | .teardown target _ => { row with status := .cancelling, teardownTarget := some target }
  | .failedLaunch error => DelegationStore.failLaunch error row

inductive InputStage where
  | begun
  | own
  | ownLocked
  | scopeRead (parentSessionId delegationId : String)
  | parentLocked (parentSessionId delegationId : String)
  | delegationLocked (parentSessionId delegationId : String) (status : DelegationStatus)
  | childLocked (parentSessionId delegationId : String) (status : DelegationStatus)

inductive ControlStage where
  | begun
  | delegationLocked (delegation : Delegation)
  | childLocked (delegation : Delegation)

/-- A launch claims its delegation, reads it, and creates the missing children one
after the other. -/
inductive LaunchStage where
  | begun
  | claimed
  | read (row : DelegationRow)
  | spawning (row : DelegationRow) (missing : List Nat)
  | parentLocked (row : DelegationRow) (missing : List Nat)

inductive ClosingStage where
  | begun
  | parentLocked
  | moved (row : DelegationRow)
  | childrenLocked (row : DelegationRow) (childIds : List String)
  | selected (row : DelegationRow) (childIds inputIds : List String)

inductive FinishStage where
  | begun
  | locked (expectedSubagents : Int)
  | ready

inductive FinishTeardownStage where
  | begun
  | selected
  | locked

/-- A process of the daemon at one point of its transaction. -/
inductive StoreProcess where
  | enqueueInput (request : UserInput) (stage : InputStage)
  | enqueueControl (request : ScopedSubagentControlRequest) (context : ControlContext)
      (stage : ControlStage)
  | work (sessionId : String) (task : SessionWork) (locked : Bool)
  | create (request : CreateDelegationRequest) (drawn : DrawnDelegation) (locked : Bool)
  | launch (delegationId : String) (stage : LaunchStage)
  | cancel (parentSessionId delegationId attemptId : String)
  | closing (guarded : Bool) (claim : ClosingClaim) (stage : ClosingStage)
  | guarding (delegationId : String)
  | finish (delegationId attemptId : String) (status : DelegationStatus)
      (completes : status = .done ∨ status = .doneWithFailures) (stage : FinishStage)
  | finishTeardown (delegationId attemptId : String) (target : DelegationStatus)
      (stage : FinishTeardownStage)

/-- What a process may do next where it has a choice. -/
inductive StoreChoice where
  | proceed
  | spawn (fork : ContextFork)
  | fail (error : LaunchError)

variable (store : DelegationStore)

def StoreProcess.begins : StoreProcess → Bool
  -- The id of a session is drawn at random, so that only an existing one can be named.
  | .enqueueInput request .begun => store.hasSession request.sessionId
  | .enqueueControl _ _ .begun => true
  | .work _ _ false => true
  | .create _ _ false => true
  | .launch _ .begun => true
  | .cancel _ _ _ => true
  -- The recovery at boot takes up the teardowns it lists, under no claim.
  | .closing false { parentSessionId, delegationId, attemptId, cause := .teardown target _ }
      .begun =>
      store.delegations.any fun row =>
        row.isAttempt delegationId attemptId && row.parentSessionId == parentSessionId
          && row.status == .cancelling && row.teardownTarget == some target
  | .finish _ _ _ _ .begun => true
  | .finishTeardown _ _ _ .begun => true
  | _ => false

def StoreProcess.holds : StoreProcess → List StoreLock
  | .enqueueInput request stage =>
    match stage with
    | .begun | .own | .scopeRead _ _ => []
    | .ownLocked => [.session request.sessionId]
    | .parentLocked parentSessionId _ => [.session parentSessionId]
    | .delegationLocked parentSessionId delegationId _ =>
      [.session parentSessionId, .delegation delegationId]
    | .childLocked parentSessionId delegationId _ =>
      [.session parentSessionId, .delegation delegationId, .session request.sessionId]
  | .enqueueControl request _ stage =>
    match stage with
    | .begun => []
    | .delegationLocked delegation => [.delegation delegation.id]
    | .childLocked delegation => [.delegation delegation.id, .session request.subagentId]
  | .work sessionId _ locked => if locked then [.session sessionId] else []
  | .create request _ locked => if locked then [.session request.parentSessionId] else []
  | .launch delegationId stage =>
    match stage with
    | .begun => []
    | .claimed | .read _ | .spawning _ _ => [.launch delegationId]
    | .parentLocked row _ => [.launch delegationId, .session row.parentSessionId]
  | .cancel _ _ _ => []
  | .closing guarded claim stage =>
    (if guarded then [.launch claim.delegationId] else []) ++
      match stage with
      | .begun => []
      | .parentLocked => [.session claim.parentSessionId]
      | .moved _ => [.session claim.parentSessionId, .delegation claim.delegationId]
      | .childrenLocked _ childIds | .selected _ childIds _ =>
        .session claim.parentSessionId :: .delegation claim.delegationId ::
          childIds.map StoreLock.session
  | .guarding delegationId => [.launch delegationId]
  | .finish delegationId _ _ _ stage =>
    match stage with
    | .begun => []
    | .locked _ | .ready => [.delegation delegationId]
  | .finishTeardown delegationId _ _ stage =>
    match stage with
    | .begun | .selected => []
    | .locked => [.delegation delegationId]

/-- The update of an active input in a teardown. -/
def MailboxRow.cancelInTeardown (row : MailboxRow) : MailboxRow :=
  { row with
    status := .cancelled
    origin := some
      { row.origin.getD {} with
        controlPhase := some
          (if row.isScopedControl then .cancelled else row.controlPhase.getD .cancelled) }
    followUpPosition := none
    version := row.version + 1 }

namespace DelegationStore

def findSession (sessionId : String) : Option SessionRow :=
  store.sessions.find? (·.id == sessionId)

def findDelegation (delegationId : String) : Option DelegationRow :=
  store.delegations.find? (·.id == delegationId)

/-- A transaction on one session, joined to the delegation as the transaction read it. -/
def onSession (sessionId : String) (delegation : Delegation)
    (change : ChildSession → ChildSession) : DelegationStore :=
  { store with
    sessions := store.sessions.map fun session =>
      if session.id == sessionId then session.become (change (session.under delegation))
      else session }

/-- The places of a launch that have been filled. -/
def spawnedIndices (delegationId : String) : List (Option Nat) :=
  (store.subagents delegationId).map SessionRow.delegationSpawnIndex

def missingIndices (row : DelegationRow) : List Nat :=
  (List.range row.expectedSubagents.toNat).filter fun index =>
    !(store.spawnedIndices row.id).contains (some index)

/-- A child begins with a copy of its parent's history and its task in the queue. -/
def createContextFork (row : DelegationRow) (index : Nat) (fork : ContextFork) : DelegationStore :=
  { store with
    sessions := store.sessions ++
      [{ id := fork.childSessionId
         parentSessionId := some row.parentSessionId
         delegationId := some row.id
         delegationSpawnIndex := some index
         subagentType := some fork.subagentType
         entries := fork.entries
         activeLeafId := fork.activeLeafId
         actions := []
         mailbox :=
           [{ id := fork.inputId
              priority := .followUp
              content := .input (.userMessage fork.task)
              status := .queued
              clientInputId := none
              origin := none
              followUpPosition := some 0
              createdAt := fork.createdAt
              version := 0 }] }] }

/-- The inputs that a statement of the teardown selects. -/
def activeInputIds (delegationId : String) : List String :=
  (store.subagents delegationId).flatMap fun session =>
    (session.mailbox.filter MailboxRow.isActive).map MailboxRow.id

/-- The selected inputs are cancelled, each if it is still active. -/
def cancelInputs (row : DelegationRow) (inputIds : List String) : DelegationStore :=
  { store with
    sessions := store.sessions.map fun session =>
      if session.delegationId == some row.id then
        { session with
          mailbox := session.mailbox.map fun input =>
            if input.isActive && inputIds.contains input.id then input.cancelInTeardown
            else input }
      else session }

end DelegationStore

/-- The insertion, under the status that was read of the delegation. -/
def UserInput.insert (request : UserInput) (child : ChildSession) : ChildSession :=
  child.enqueueUserInput request.priority request.content request.clientInputId request.context

namespace StoreProcess

/-- The next statement of an ordinary input. -/
def moveInput (request : UserInput) : InputStage → Option (DelegationStore × Option StoreProcess)
  | .begun =>
    match store.findSession request.sessionId with
    | none => none
    | some session =>
      match session.delegationId, session.parentSessionId with
      | none, _ => some (store, some (.enqueueInput request .own))
      | some _, none => none
      | some delegationId, some parentSessionId =>
        some (store, some (.enqueueInput request (.scopeRead parentSessionId delegationId)))
  | .own => some (store, some (.enqueueInput request .ownLocked))
  | .ownLocked =>
    -- A session of its own has no delegation that could be closed.
    let unscoped := { id := "", parentSessionId := "", status := .running }
    some (store.onSession request.sessionId unscoped request.insert, none)
  | .scopeRead parentSessionId delegationId =>
    if store.hasSession parentSessionId then
      some (store, some (.enqueueInput request (.parentLocked parentSessionId delegationId)))
    else none
  | .parentLocked parentSessionId delegationId =>
    match store.findDelegation delegationId with
    | none => none
    | some row =>
      some (store, some (.enqueueInput request
        (.delegationLocked parentSessionId delegationId row.status)))
  | .delegationLocked parentSessionId delegationId status =>
    some (store, some (.enqueueInput request
      (.childLocked parentSessionId delegationId status)))
  | .childLocked parentSessionId delegationId status =>
    match store.findSession request.sessionId with
    | none => none
    | some session =>
      if session.delegationId != some delegationId then none
      else if status != .running then none
      else
        some (store.onSession request.sessionId { id := delegationId, parentSessionId, status }
          request.insert, none)

/-- The next statement of a control. -/
def moveControl (request : ScopedSubagentControlRequest)
    (context : ControlContext) : ControlStage → Option (DelegationStore × Option StoreProcess)
  | .begun =>
    match store.findDelegation request.delegationId with
    | none => none
    | some row =>
      some (store, some (.enqueueControl request context (.delegationLocked row.joined)))
  | .delegationLocked delegation =>
    some (store, some (.enqueueControl request context (.childLocked delegation)))
  | .childLocked delegation =>
    match store.findSession request.subagentId with
    | none => none
    | some session =>
      match (session.under delegation).enqueueScopedSubagentControl request context with
      | .error _ | .ok none => none
      | .ok (some (_, _)) =>
        some (store.onSession request.subagentId delegation fun child =>
          match child.enqueueScopedSubagentControl request context with
          | .error _ | .ok none => child
          | .ok (some (enqueued, _)) => enqueued, none)

/-- The next statement of a launch. A failure goes on with the teardown, under the
claim of the launch. -/
def moveLaunch (delegationId : String) :
    LaunchStage → StoreChoice → Option (DelegationStore × Option StoreProcess)
  | .begun, .proceed => some (store, some (.launch delegationId .claimed))
  | .claimed, .proceed =>
    match store.findDelegation delegationId with
    | none => none
    | some row => some (store, some (.launch delegationId (.read row)))
  | .read row, .proceed =>
    if row.status ≠ .running
        ∧ ((store.spawnedIndices row.id).length : Int) < row.expectedSubagents then none
    else some (store, some (.launch delegationId (.spawning row (store.missingIndices row))))
  | .read row, .fail error | .spawning row _, .fail error | .parentLocked row _, .fail error =>
    some (store, some (.closing true
      { parentSessionId := row.parentSessionId
        delegationId
        attemptId := row.attemptId
        cause := .failedLaunch error } .begun))
  | .spawning row (index :: missing), .proceed =>
    if store.hasSession row.parentSessionId then
      some (store, some (.launch delegationId (.parentLocked row (index :: missing))))
    else none
  | .parentLocked row (index :: missing), .spawn fork =>
    if store.hasSession fork.childSessionId then none
    else
      some (store.createContextFork row index fork,
        some (.launch delegationId (.spawning row missing)))
  | _, _ => none

/-- The next statement of a teardown. -/
def moveClosing (guarded : Bool) (claim : ClosingClaim) :
    ClosingStage → Option (DelegationStore × Option StoreProcess)
  | .begun =>
    if store.hasSession claim.parentSessionId then
      some (store, some (.closing guarded claim .parentLocked))
    else none
  | .parentLocked =>
    match store.delegations.find? claim.admits with
    | none => none
    | some row => some (store, some (.closing guarded claim (.moved row)))
  | .moved row =>
    if (claim.change row).status = .cancelling then
      some (store, some (.closing guarded claim
        (.childrenLocked row ((store.subagents row.id).map SessionRow.id))))
    else
      (store.moveDelegation claim.admits claim.change).map fun moved => (moved.1, none)
  | .childrenLocked row childIds =>
    some (store, some (.closing guarded claim
      (.selected row childIds (store.activeInputIds row.id))))
  | .selected _ _ inputIds =>
    (store.moveDelegation claim.admits claim.change).map fun (moved, row) =>
      (moved.cancelInputs row inputIds,
        if guarded then some (.guarding claim.delegationId) else none)

/-- The next statement of a completion. -/
def moveFinish (delegationId attemptId : String)
    (status : DelegationStatus) (completes : status = .done ∨ status = .doneWithFailures) :
    FinishStage → Option (DelegationStore × Option StoreProcess)
  | .begun =>
    match store.delegations.find? fun row =>
        row.isAttempt delegationId attemptId && row.status == .running with
    | none => none
    | some row =>
      some (store, some (.finish delegationId attemptId status completes
        (.locked row.expectedSubagents)))
  | .locked expectedSubagents =>
    if store.readyToFinish delegationId expectedSubagents then
      some (store, some (.finish delegationId attemptId status completes .ready))
    else none
  | .ready =>
    (store.moveDelegation
      (fun row => row.isAttempt delegationId attemptId && row.status == .running)
      (fun row => { row with status })).map fun moved => (moved.1, none)

/-- The one statement of the end of a teardown: it selects a row by what is committed
when it begins, and looks at the row again once it is locked. -/
def moveFinishTeardown (delegationId attemptId : String) (target : DelegationStatus) :
    FinishTeardownStage → Option (DelegationStore × Option StoreProcess)
  | .begun =>
    if store.delegations.any fun row =>
        row.isAttempt delegationId attemptId && row.status == .cancelling
          && row.teardownTarget == some target
          && !(store.subagents row.id).any SessionRow.hasQueuedInputs then
      some (store, some (.finishTeardown delegationId attemptId target .selected))
    else none
  | .selected => some (store, some (.finishTeardown delegationId attemptId target .locked))
  | .locked =>
    (store.moveDelegation
      (fun row => row.isAttempt delegationId attemptId && row.status == .cancelling
        && row.teardownTarget == some target)
      (fun row => { row with status := target, teardownTarget := none })).map
        fun moved => (moved.1, none)

/-- The next statement of a process. Where there is none the process can only end. -/
def move (process : StoreProcess) (choice : StoreChoice) :
    Option (DelegationStore × Option StoreProcess) :=
  match process with
  | .enqueueInput request stage => moveInput store request stage
  | .enqueueControl request context stage => moveControl store request context stage
  | .work sessionId task false => some (store, some (.work sessionId task true))
  | .work sessionId task true =>
    -- What a session does with its own rows does not depend on its delegation.
    let unread := { id := "", parentSessionId := "", status := .running }
    some (store.onSession sessionId unread task.run, none)
  | .create request drawn false =>
    if store.hasSession request.parentSessionId then
      some (store, some (.create request drawn true))
    else none
  | .create request drawn true =>
    match store.createDelegationIdempotent request drawn with
    | .error _ => none
    | .ok (created, _) => some (created, none)
  | .launch delegationId stage => moveLaunch store delegationId stage choice
  | .cancel parentSessionId delegationId attemptId =>
    some (store, some (.closing true
      { parentSessionId, delegationId, attemptId, cause := .teardown .cancelled (.inl rfl) }
      .begun))
  | .closing guarded claim stage => moveClosing store guarded claim stage
  | .guarding _ => some (store, none)
  | .finish delegationId attemptId status completes stage =>
    moveFinish store delegationId attemptId status completes stage
  | .finishTeardown delegationId attemptId target stage =>
    moveFinishTeardown store delegationId attemptId target stage

end StoreProcess

/-- The transactions of every client of the store. -/
def storeProgram : Program DelegationStore StoreProcess StoreChoice StoreLock where
  begins := StoreProcess.begins
  holds := StoreProcess.holds
  move := StoreProcess.move

end PiRelay.Store
