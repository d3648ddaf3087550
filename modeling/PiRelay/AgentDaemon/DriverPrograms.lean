import PiRelay.Library.LockTasks

/-! The daemon's functions as far as they acquire session drivers. What a function reads
besides is left open where it only decides which way to go on. The rows that link sessions
and delegations are kept, as they say whose drivers are acquired. -/
namespace PiRelay.Runtime.Drivers

open Library (LockProgram)

/-- A row of `sessions`, with what links it to other rows. -/
structure SessionRow where
  id : String
  parentSessionId : Option String := none
  delegationId : Option String := none

structure Delegation where
  id : String
  parentSessionId : String
  expectedSubagents : Nat

/-- The tables, and what no table keeps: the ids that were made up for children, each with
the session it was made up for, and the delegations that were ever created. -/
structure Store where
  sessions : List SessionRow := []
  childIds : List (String × String) := []
  delegations : List Delegation := []

namespace Store

variable (store : Store)

def session (sessionId : String) : Option SessionRow :=
  store.sessions.find? (·.id == sessionId)

/-- `insert into sessions`, where the id may be taken. -/
def insertSession (row : SessionRow) : Store :=
  if (store.session row.id).isSome then store
  else { store with sessions := store.sessions ++ [row] }

def deleteSession (sessionId : String) : Store :=
  { store with sessions := store.sessions.filter (·.id != sessionId) }

def listChildSessionIds (parentSessionId : String) : List String :=
  (store.sessions.filter (·.parentSessionId == some parentSessionId)).map (·.id)

def listDelegationSubagents (delegationId : String) : List String :=
  (store.sessions.filter (·.delegationId == some delegationId)).map (·.id)

/-- What `Uuid::new_v4` gives has not been seen as the id of a child or of a parent. -/
def IsNew (childSessionId parentSessionId : String) : Prop :=
  childSessionId ≠ parentSessionId ∧
    ∀ link ∈ store.childIds, childSessionId ≠ link.1 ∧ childSessionId ≠ link.2

end Store

/-- What decides how a function goes on and is not kept here. -/
inductive Check where
  /-- The awaits before the next decision return `Ok`. -/
  | succeeds
  /-- `state.active` has the session. -/
  | isActive
  /-- `recover_post_compaction_dispatches` found an intent. -/
  | hadPostCompactionIntent
  /-- `active_leaf_is_turn_boundary`. -/
  | activeLeafIsTurnBoundary
  /-- `is_turn_boundary` of the loaded transcript. -/
  | storeIsTurnBoundary
  /-- `is_ready_to_continue`. -/
  | shouldContinue
  /-- `activity` is `Idle`. -/
  | isIdle
  /-- `ensure_idle_without_recovery`. -/
  | isIdleWithoutRecovery
  /-- `consume_ready_steer` took a steer. -/
  | consumedSteer
  /-- `dispatch_and_check`. -/
  | dispatched
  | hasUnfinishedActions
  | hasQueuedInputs
  /-- `take_next_queued_input` took an input. -/
  | tookInput
  /-- `subagent_idle_notification_key` and `claim_subagent_idle_once` return `Ok`. -/
  | claimedIdle
  /-- The delegation's status is `Running`. -/
  | delegationIsRunning
  /-- `delegation_subagents_all_terminal`. -/
  | allTerminal
  /-- `try_claim_and_publish_completed_delegation`. -/
  | wonClaim
  /-- `delegation_spawned_indices` has the index, or all of them. -/
  | isSpawned
  /-- `role.context` is `Fresh`. -/
  | isFresh
  /-- `should_drive_inline`. -/
  | drivesInline
  /-- The function goes on with its next stage. -/
  | goesOn

inductive Query where
  /-- `Uuid::new_v4` for a child of the session. -/
  | newChildId (parentSessionId : String)
  | sessionExists (sessionId : String)
  /-- `start_session_outputs_with_parent`, `create_context_fork` and `create_fork`. -/
  | insertSession (row : SessionRow)
  | sessionParentId (sessionId : String)
  | listChildSessionIds (parentSessionId : String)
  | deleteSession (sessionId : String)
  | sessionDelegationId (sessionId : String)
  | createDelegation (parentSessionId : String)
  | getDelegation (delegationId : String)
  | listDelegationSubagents (delegationId : String)
  | listDelegations
  | check (check : Check)

@[reducible] def Query.Reply : Query → Type
  | .newChildId _ => String
  | .sessionExists _ => Bool
  | .insertSession _ => Bool
  | .sessionParentId _ => Option String
  | .listChildSessionIds _ => List String
  | .deleteSession _ => Bool
  | .sessionDelegationId _ => Option String
  | .createDelegation _ => Option Delegation
  | .getDelegation _ => Option Delegation
  | .listDelegationSubagents _ => List String
  | .listDelegations => List Delegation
  | .check _ => Bool

/-- What a query can answer, and the tables after it. A write may fail. -/
def Store.Answers (store : Store) : (query : Query) → query.Reply → Store → Prop
  | .newChildId parentSessionId, childSessionId, after =>
    store.IsNew childSessionId parentSessionId ∧
      after = { store with childIds := (childSessionId, parentSessionId) :: store.childIds }
  | .sessionExists sessionId, found, after =>
    found = (store.session sessionId).isSome ∧ after = store
  | .insertSession row, ok, after => after = store.insertSession row ∨ ok = false ∧ after = store
  | .sessionParentId sessionId, parentSessionId, after =>
    parentSessionId = (store.session sessionId).bind (·.parentSessionId) ∧ after = store
  | .listChildSessionIds parentSessionId, sessionIds, after =>
    sessionIds = store.listChildSessionIds parentSessionId ∧ after = store
  | .deleteSession sessionId, ok, after =>
    after = store.deleteSession sessionId ∨ ok = false ∧ after = store
  | .sessionDelegationId sessionId, delegationId, after =>
    delegationId = (store.session sessionId).bind (·.delegationId) ∧ after = store
  | .createDelegation parentSessionId, created, after =>
    -- A launch key that was used before finds its delegation again.
    (∃ delegation, created = some delegation ∧ delegation.parentSessionId = parentSessionId ∧
      (delegation ∈ store.delegations ∧ after = store ∨
        after = { store with delegations := delegation :: store.delegations })) ∨
    created = none ∧ after = store
  | .getDelegation delegationId, found, after =>
    (∀ delegation ∈ found, delegation ∈ store.delegations ∧ delegation.id = delegationId) ∧
      after = store
  | .listDelegationSubagents delegationId, sessionIds, after =>
    sessionIds = store.listDelegationSubagents delegationId ∧ after = store
  | .listDelegations, delegations, after =>
    (∀ delegation ∈ delegations, delegation ∈ store.delegations) ∧ after = store
  | .check _, _, after => after = store

/-- What a holder of one driver does under it. -/
inductive Stage where
  | recoverIfNeeded
  | ensureIdleForSourceMutation
  | driveUntilBlocked
  /-- Awaits that take no driver and run no barrier. -/
  | other

inductive Procedure where
  | ensureIdleForSourceMutation (sessionId : String)
  | recoverIfNeeded (sessionId : String)
  | reconcileAbandonedBoundarySession (sessionId : String)
  | driveUntilBlocked (sessionId : String)
  | driveRound (sessionId : String)
  | tryHandleSubagentTerminalForParent (sessionId : String)
  | tryDelegationBarrier (delegationId : String)
  | completeDelegationIfReady (delegationId : String)
  | guardDelegationBarrier (delegationId : String)
  | runDelegationBarrier (delegationId : String)
  | recoverSubagentTails (delegationId : String)
  | driveParentAfterWakeup (parentSessionId : String)
  | startDelegation (parentSessionId : String)
  | materializeDelegationLaunch (delegationId : String)
  | spawnSubagent (parentSessionId delegationId : String)
  | startPreparedSession (sessionId parentSessionId delegationId : String)
  | cancelDelegationSubagents (delegationId : String)
  | cancelSubagentWithoutReactivation (sessionId : String)
  | steerSubagent (sessionId : String)
  | interruptSubagent (sessionId : String)
  | sessionDelete (sessionId : String)
  | lockHiddenSubagentDeleteTree (seen stack childSessionIds : List String)
  | sessionStart (sessionId : String)
  | historyFork (sessionId childSessionId : String)
  | withDriver (sessionId : String) (stages : List Stage)
  | withFreeDriver (sessionId : String) (stages : List Stage)
  | recoverActiveDelegations
  | sweepRunningDelegations

/-- Per-task set of delegations whose barrier is in flight up the call stack, in the scope
of the outermost barrier. -/
abbrev InFlightBarriers : Type := Option (List String)

abbrev DriverProgram : Type := LockProgram String InFlightBarriers Query Query.Reply Procedure

/-- Go on as the check says. -/
def branch (decides : Check) (next : Bool → DriverProgram) : DriverProgram :=
  .ask (.check decides) next

/-- Awaits that end the function if they fail. -/
def attempt (next : DriverProgram) : DriverProgram :=
  branch .succeeds fun ok => if ok then next else .done false

/-- A call that ends the function if it fails. -/
def callOk (procedure : Procedure) (next : DriverProgram) : DriverProgram :=
  .call procedure fun ok => if ok then next else .done false

section

variable (sessionId : String)

def ensureIdleForSourceMutation : DriverProgram :=
  callOk (.recoverIfNeeded sessionId) <| branch .isIdleWithoutRecovery .done

def recoverIfNeeded : DriverProgram :=
  -- `reconcile_pending_subagent_controls`
  attempt <| branch .isActive fun active =>
  if active then .done true else
  attempt <| branch .hadPostCompactionIntent fun resumed =>
  if resumed then .done true else
  attempt <| branch .activeLeafIsTurnBoundary fun atBoundary =>
  if atBoundary then .call (.reconcileAbandonedBoundarySession sessionId) .done else
  attempt <| branch .storeIsTurnBoundary fun atBoundary =>
  if atBoundary then .call (.reconcileAbandonedBoundarySession sessionId) .done else
  -- `from_stored_session`, `recover_session`
  attempt <| branch .shouldContinue fun shouldContinue => branch .isIdle fun isIdle =>
  if !shouldContinue && isIdle then
    .call (.tryHandleSubagentTerminalForParent sessionId) fun _ => attempt (.done true)
  else
    attempt <| if shouldContinue then .call (.driveUntilBlocked sessionId) .done else .done true

def reconcileAbandonedBoundarySession : DriverProgram :=
  attempt <| branch .isIdle fun isIdle =>
  if isIdle then .call (.tryHandleSubagentTerminalForParent sessionId) fun _ => .done true
  else .done true

def driveUntilBlocked : DriverProgram :=
  -- `ensure_active_loaded`
  attempt <| .call (.driveRound sessionId) .done

/-- One iteration of the loop of `drive_until_blocked`; a `continue` is a call of the next. -/
def driveRound : DriverProgram :=
  branch .isActive fun active =>
  if !active then .done true else
  attempt <| branch .consumedSteer fun consumed =>
  attempt <| branch .dispatched fun dispatched =>
  if dispatched then .done true else
  if consumed then .call (.driveRound sessionId) .done else
  attempt <| branch .hasUnfinishedActions fun unfinished =>
  if unfinished then .done true else
  attempt <| branch .tookInput fun took =>
  if took then
    attempt <| branch .dispatched fun dispatched =>
    if dispatched then .done true else .call (.driveRound sessionId) .done
  else
    -- `SessionIdle`
    attempt <| .call (.tryHandleSubagentTerminalForParent sessionId) fun _ => attempt (.done true)

def tryHandleSubagentTerminalForParent : DriverProgram :=
  .ask (.sessionParentId sessionId) fun parentSessionId =>
  if parentSessionId.isNone then .done true else
  .ask (.sessionDelegationId sessionId) fun delegationId =>
  match delegationId with
  | none => .done true
  | some delegationId =>
    branch .claimedIdle fun claimed =>
    if claimed then .call (.tryDelegationBarrier delegationId) fun _ => .done true
    else .done true

end

variable (delegationId : String)

def tryDelegationBarrier : DriverProgram :=
  .call (.completeDelegationIfReady delegationId) fun _ => .done true

/-- The outermost call establishes the set, nested ones reuse it. -/
def completeDelegationIfReady : DriverProgram :=
  .locally (fun inFlight => (inFlight.isSome, inFlight)) fun established =>
  if established then .call (.guardDelegationBarrier delegationId) .done
  else
    .locally (fun _ => (true, some [])) fun _ =>
    .call (.guardDelegationBarrier delegationId) fun ok =>
    .locally (fun _ => (true, none)) fun _ => .done ok

/-- `insert`, which tells whether the delegation is new. `with` has no set outside a scope. -/
def insertBarrier : InFlightBarriers → Bool × InFlightBarriers
  | none => (false, none)
  | some inFlight =>
    if delegationId ∈ inFlight then (false, some inFlight)
    else (true, some (delegationId :: inFlight))

def removeBarrier (inFlight : InFlightBarriers) : Bool × InFlightBarriers :=
  (true, inFlight.map (·.erase delegationId))

def guardDelegationBarrier : DriverProgram :=
  .locally (insertBarrier delegationId) fun newlyEntered =>
  if !newlyEntered then .done true else
  .call (.runDelegationBarrier delegationId) fun ok =>
  .locally (removeBarrier delegationId) fun _ => .done ok

def runDelegationBarrier : DriverProgram :=
  attempt <| .ask (.getDelegation delegationId) fun found =>
  match found with
  | none => .done true
  | some delegation =>
    branch .delegationIsRunning fun isRunning =>
    if !isRunning then .done true else
    .call (.recoverSubagentTails delegationId) fun _ =>
    attempt <| branch .allTerminal fun allTerminal =>
    if !allTerminal then .done true else
    -- `classify_subagents`
    attempt <| branch .wonClaim fun won =>
    if !won then .done true else
    .call (.driveParentAfterWakeup delegation.parentSessionId) fun _ => .done true

/-- The drivers that are free, one after the other. -/
def recoverTails : List String → DriverProgram
  | [] => .done true
  | sessionId :: rest =>
    .tryAcquire sessionId fun acquired =>
    if acquired then
      .call (.recoverIfNeeded sessionId) fun _ => .release sessionId (recoverTails rest)
    else recoverTails rest

def recoverSubagentTails : DriverProgram :=
  .ask (.listDelegationSubagents delegationId) recoverTails

def driveParentAfterWakeup (parentSessionId : String) : DriverProgram :=
  .tryAcquire parentSessionId fun acquired =>
  if !acquired then .done true else
  .call (.recoverIfNeeded parentSessionId) fun ok =>
  if !ok then .done true else
  .call (.driveUntilBlocked parentSessionId) fun _ => .done true

/-- `start_full` and `start_readonly_fanout`. -/
def startDelegation (parentSessionId : String) : DriverProgram :=
  -- `reject_if_subagent`
  attempt <| .ask (.createDelegation parentSessionId) fun created =>
  match created with
  | none => .done false
  | some delegation => .call (.materializeDelegationLaunch delegation.id) .done

/-- The children that are not spawned yet; one that fails tears the delegation down. -/
def spawnMissing (delegation : Delegation) : Nat → DriverProgram
  | 0 => .done true
  | missing + 1 =>
    branch .isSpawned fun isSpawned =>
    if isSpawned then spawnMissing delegation missing else
    .call (.spawnSubagent delegation.parentSessionId delegation.id) fun ok =>
    if ok then spawnMissing delegation missing else
    -- `fail_delegation_launch`
    attempt <| callOk (.cancelDelegationSubagents delegation.id) (.done false)

def materializeDelegationLaunch : DriverProgram :=
  attempt <| .ask (.getDelegation delegationId) fun found =>
  match found with
  | none => .done false
  | some delegation => attempt (spawnMissing delegation delegation.expectedSubagents)

/-- `require_known_subagent`, the spawn events, and the first drive under the child's driver. -/
def launchSubagent (childSessionId parentSessionId : String) (isFresh : Bool) : DriverProgram :=
  .ask (.sessionParentId childSessionId) fun actual =>
  if actual ≠ some parentSessionId then .done false else
  branch .succeeds fun published =>
  if !published then
    if isFresh then .ask (.deleteSession childSessionId) fun _ => .done false else .done false
  else
    .acquire childSessionId <|
    if isFresh then
      branch .succeeds fun dispatched =>
      if dispatched then .done true
      -- `cleanup_failed_spawn`
      else .ask (.deleteSession childSessionId) fun _ => .done false
    else callOk (.driveUntilBlocked childSessionId) (.done true)

def spawnSubagent (parentSessionId delegationId : String) : DriverProgram :=
  .acquire parentSessionId <|
  callOk (.recoverIfNeeded parentSessionId) <|
  -- The configuration of the parent, the role, the workspace and the prompt.
  attempt <| .ask (.newChildId parentSessionId) fun childSessionId =>
  attempt <| branch .isFresh fun isFresh =>
  if isFresh then
    callOk (.startPreparedSession childSessionId parentSessionId delegationId) <|
    launchSubagent childSessionId parentSessionId isFresh
  else
    -- `create_context_fork`
    attempt <| .ask (.insertSession ⟨childSessionId, some parentSessionId, some delegationId⟩) fun ok =>
    if !ok then .done false else launchSubagent childSessionId parentSessionId isFresh

def startPreparedSession (sessionId parentSessionId delegationId : String) : DriverProgram :=
  .acquire sessionId <|
  attempt <| .ask (.sessionExists sessionId) fun found =>
  if found then .done true else
  attempt <| .ask (.insertSession ⟨sessionId, some parentSessionId, some delegationId⟩) .done

def cancelSubagents : List String → DriverProgram
  | [] => .done true
  | sessionId :: rest =>
    callOk (.cancelSubagentWithoutReactivation sessionId) (cancelSubagents rest)

/-- `cancel_delegation_subagents_without_reactivation`. -/
def cancelDelegationSubagents : DriverProgram :=
  attempt <| .ask (.listDelegationSubagents delegationId) cancelSubagents

variable (sessionId : String)

def cancelSubagentWithoutReactivation : DriverProgram :=
  -- `abort_and_join_session_tasks`
  attempt <| .acquire sessionId <| attempt (.done true)

def steerSubagent : DriverProgram :=
  attempt <| .acquire sessionId <|
  -- `reconcile_pending_subagent_controls`
  attempt <| callOk (.recoverIfNeeded sessionId) <|
  -- `enqueue_scoped_subagent_steer`
  attempt <| branch .drivesInline fun inline =>
  if inline then
    attempt <| .call (.driveUntilBlocked sessionId) fun _ => .release sessionId (.done true)
  else .release sessionId (.done true)

def interruptSubagent : DriverProgram :=
  attempt <| .acquire sessionId <|
  attempt <| callOk (.recoverIfNeeded sessionId) <|
  -- `enqueue_scoped_subagent_interrupt`
  attempt <| .call (.driveUntilBlocked sessionId) fun _ => .release sessionId (.done true)

/-- Children before their parents; one that cannot be deleted ends the request. -/
def deleteSessions : List String → DriverProgram
  | [] => .done true
  | sessionId :: rest =>
    .ask (.deleteSession sessionId) fun ok => if ok then deleteSessions rest else .done false

def sessionDelete : DriverProgram :=
  .ask (.sessionExists sessionId) fun found =>
  if !found then .done false else
  .call (.lockHiddenSubagentDeleteTree [sessionId] [sessionId] []) .done

/-- The children not yet seen, in order. -/
def unseen (seen : List String) : List String → List String
  | [] => []
  | childSessionId :: rest =>
    if childSessionId ∈ seen then unseen seen rest
    else childSessionId :: unseen (childSessionId :: seen) rest

/-- One iteration of the loop, which keeps its driver while the next ones run; `stack` has
the session to pop first. When the stack is empty the sessions are deleted, under all the
drivers, with the one the request is about as the last. -/
def lockHiddenSubagentDeleteTree (seen : List String) :
    (stack childSessionIds : List String) → DriverProgram
  | [], childSessionIds => deleteSessions (childSessionIds.reverse ++ seen.getLast?.toList)
  | parentSessionId :: stack, childSessionIds =>
    .acquire parentSessionId <|
    callOk (.ensureIdleForSourceMutation parentSessionId) <|
    attempt <| .ask (.listChildSessionIds parentSessionId) fun children =>
    let fresh := unseen seen children
    .call (.lockHiddenSubagentDeleteTree (fresh.reverse ++ seen) (fresh.reverse ++ stack)
      (childSessionIds ++ fresh)) .done

def sessionStart : DriverProgram :=
  .acquire sessionId <|
  attempt <| .ask (.sessionExists sessionId) fun found =>
  if found then .done true else
  attempt <| .ask (.insertSession { id := sessionId }) .done

def historyFork (sessionId childSessionId : String) : DriverProgram :=
  .acquire sessionId <|
  callOk (.ensureIdleForSourceMutation sessionId) <|
  attempt <| .ask (.insertSession { id := childSessionId }) .done

/-- The stages under a driver, up to the one after which the function returns. -/
def runStages (sessionId : String) : List Stage → DriverProgram
  | [] => .done true
  | stage :: rest =>
    let next := fun _ => branch .goesOn fun goesOn =>
      if goesOn then runStages sessionId rest else .done true
    match stage with
    | .recoverIfNeeded => .call (.recoverIfNeeded sessionId) next
    | .ensureIdleForSourceMutation => .call (.ensureIdleForSourceMutation sessionId) next
    | .driveUntilBlocked => .call (.driveUntilBlocked sessionId) next
    | .other => branch .succeeds next

/-- The runners of models, tools and compactions, the background drives and the requests for
one session: each acquires the session's driver and nothing else. -/
def withDriver (stages : List Stage) : DriverProgram :=
  .acquire sessionId (runStages sessionId stages)

/-- `spawn_try_drive_until_blocked` and the reconciliation of controls. -/
def withFreeDriver (stages : List Stage) : DriverProgram :=
  .tryAcquire sessionId fun acquired =>
  if acquired then runStages sessionId stages else .done true

def recoverSpawned (next : DriverProgram) : List String → DriverProgram
  | [] => next
  | sessionId :: rest =>
    -- A child with pending actions is only loaded.
    .acquire sessionId <| branch .goesOn fun recovers =>
    if recovers then
      .call (.recoverIfNeeded sessionId) fun _ => .release sessionId (recoverSpawned next rest)
    else .release sessionId (recoverSpawned next rest)

def recoverChildren : List Delegation → DriverProgram
  | [] => .done true
  | delegation :: rest =>
    .ask (.listDelegationSubagents delegation.id) (recoverSpawned (recoverChildren rest))

def materializeLaunches (next : DriverProgram) : List Delegation → DriverProgram
  | [] => next
  | delegation :: rest =>
    branch .isSpawned fun isSpawned =>
    if isSpawned then materializeLaunches next rest else
    .call (.materializeDelegationLaunch delegation.id) fun _ => materializeLaunches next rest

/-- `recover_active_delegations_after_stale_mark`. -/
def recoverActiveDelegations : DriverProgram :=
  .ask .listDelegations <| materializeLaunches <| .ask .listDelegations recoverChildren

def sweepDelegations : List Delegation → DriverProgram
  | [] => .done true
  | delegation :: rest =>
    .call (.completeDelegationIfReady delegation.id) fun _ => sweepDelegations rest

/-- `sweep_running_delegations_on_boot`. -/
def sweepRunningDelegations : DriverProgram := .ask .listDelegations sweepDelegations

def body : Procedure → DriverProgram
  | .ensureIdleForSourceMutation sessionId => ensureIdleForSourceMutation sessionId
  | .recoverIfNeeded sessionId => recoverIfNeeded sessionId
  | .reconcileAbandonedBoundarySession sessionId => reconcileAbandonedBoundarySession sessionId
  | .driveUntilBlocked sessionId => driveUntilBlocked sessionId
  | .driveRound sessionId => driveRound sessionId
  | .tryHandleSubagentTerminalForParent sessionId => tryHandleSubagentTerminalForParent sessionId
  | .tryDelegationBarrier delegationId => tryDelegationBarrier delegationId
  | .completeDelegationIfReady delegationId => completeDelegationIfReady delegationId
  | .guardDelegationBarrier delegationId => guardDelegationBarrier delegationId
  | .runDelegationBarrier delegationId => runDelegationBarrier delegationId
  | .recoverSubagentTails delegationId => recoverSubagentTails delegationId
  | .driveParentAfterWakeup parentSessionId => driveParentAfterWakeup parentSessionId
  | .startDelegation parentSessionId => startDelegation parentSessionId
  | .materializeDelegationLaunch delegationId => materializeDelegationLaunch delegationId
  | .spawnSubagent parentSessionId delegationId => spawnSubagent parentSessionId delegationId
  | .startPreparedSession sessionId parentSessionId delegationId =>
    startPreparedSession sessionId parentSessionId delegationId
  | .cancelDelegationSubagents delegationId => cancelDelegationSubagents delegationId
  | .cancelSubagentWithoutReactivation sessionId => cancelSubagentWithoutReactivation sessionId
  | .steerSubagent sessionId => steerSubagent sessionId
  | .interruptSubagent sessionId => interruptSubagent sessionId
  | .sessionDelete sessionId => sessionDelete sessionId
  | .lockHiddenSubagentDeleteTree seen stack childSessionIds =>
    lockHiddenSubagentDeleteTree seen stack childSessionIds
  | .sessionStart sessionId => sessionStart sessionId
  | .historyFork sessionId childSessionId => historyFork sessionId childSessionId
  | .withDriver sessionId stages => withDriver sessionId stages
  | .withFreeDriver sessionId stages => withFreeDriver sessionId stages
  | .recoverActiveDelegations => recoverActiveDelegations
  | .sweepRunningDelegations => sweepRunningDelegations

/-- The functions a task of the daemon begins with. -/
def begins : Procedure → Prop
  | .startDelegation _ => True
  | .cancelDelegationSubagents _ => True
  | .steerSubagent _ => True
  | .interruptSubagent _ => True
  | .sessionDelete _ => True
  | .sessionStart _ => True
  | .historyFork _ _ => True
  | .withDriver _ _ => True
  | .withFreeDriver _ _ => True
  | .recoverActiveDelegations => True
  | .sweepRunningDelegations => True
  | _ => False

def system :
    Library.LockSystem String InFlightBarriers Query Query.Reply Procedure Store where
  body := body
  answers := Store.Answers
  begins := begins
  fresh := none

/-- The tables at boot: the sessions are a forest, and their delegations are known. -/
structure Store.Linked (store : Store) : Prop where
  parents : ∀ row ∈ store.sessions, ∀ parentSessionId ∈ row.parentSessionId,
    (row.id, parentSessionId) ∈ store.childIds
  delegations : ∀ row ∈ store.sessions, ∀ delegationId ∈ row.delegationId,
    delegationId ∈ store.delegations.map (·.id)

end PiRelay.Runtime.Drivers
