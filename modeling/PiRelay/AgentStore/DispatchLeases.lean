import Mathlib.Algebra.Ring.Nat
import PiRelay.AgentStore.Database

/-! A model action that a compaction has released carries a marker. Whoever is to
dispatch it takes a lease out in the marker, for a while, and every statement that
ends the action asks for that lease. An expired lease can be taken over under the
next generation. -/
namespace PiRelay.Store

open AgentCore Session

/-- What the runner of a claimed dispatch holds. -/
structure PostCompactionDispatchLease where
  ownerId : String
  generation : Nat
  contextLeafId : EntryId

/-- The lease as the marker stores it; an absent field is a missing key. -/
structure StoredLease where
  ownerId : Option String
  generation : Option Nat
  expiresAtMs : Option Nat
deriving DecidableEq

structure DispatchMarker where
  kind : Option String
  actionRowId : Option String
  attemptId : Option String
  contextLeafId : Option EntryId
  lease : Option StoredLease
deriving DecidableEq

def postCompactionDispatchKind : String := "resume_model_v1"

/-- An action row with what its payload says about a post-compaction dispatch. -/
structure MarkedAction where
  id : String
  attemptId : String
  action : ActionRow
  postCompactionDispatch : Option DispatchMarker
deriving DecidableEq

def ActionStatus.asStr : ActionStatus → String
  | .pending => "pending"
  | .blocked => "blocked"
  | .running => "running"
  | .completed => "completed"
  | .error => "error"
  | .interrupted => "interrupted"
  | .stale => "stale"

namespace MarkedAction

variable (row : MarkedAction)

def status : ActionStatus := row.action.status

def isModel : Bool := row.action.payload.kind == .model

/-- Whether a statement that names a row and an attempt means this row. -/
def isAttempt (actionRowId attemptId : String) : Bool :=
  row.id == actionRowId && row.attemptId == attemptId

def modelActionContextLeafId : Option EntryId :=
  match row.action.payload with
  | .model contextLeafId => contextLeafId
  | .tool _ | .compaction _ => none

/-- The row once its compaction is done: pending again, with an unclaimed marker. -/
def releaseForDispatch (contextLeafId : EntryId) : MarkedAction :=
  { row with
    action := { row.action with
      status := .pending
      payload := .model (some contextLeafId) }
    postCompactionDispatch := some
      { kind := some postCompactionDispatchKind
        actionRowId := some row.id
        attemptId := some row.attemptId
        contextLeafId := some contextLeafId
        lease := none } }

/-- A final status, and the marker removed. -/
def settle (status : ActionStatus) : MarkedAction :=
  { row with action := row.action.setStatus status, postCompactionDispatch := none }

def postCompactionDispatchContextLeafId (actionRowId attemptId : String) : Except String EntryId :=
  match row.postCompactionDispatch with
  | none => .error "post-compaction dispatch marker is not an object"
  | some marker =>
    if marker.kind != some postCompactionDispatchKind then
      .error "post-compaction dispatch marker has an unsupported kind"
    else if marker.actionRowId != some actionRowId then
      .error "post-compaction dispatch marker action row does not match"
    else if marker.attemptId != some attemptId then
      .error "post-compaction dispatch marker attempt does not match"
    else
      match marker.contextLeafId with
      | none => .error "post-compaction dispatch marker has no context leaf"
      | some markerLeaf =>
        if row.modelActionContextLeafId != some markerLeaf then
          .error
            "post-compaction dispatch marker context leaf does not match the model payload"
        else .ok markerLeaf

def postCompactionDispatchLease (actionRowId attemptId : String) :
    Except String (Option PostCompactionDispatchLease) :=
  match row.postCompactionDispatchContextLeafId actionRowId attemptId with
  | .error message => .error message
  | .ok contextLeafId =>
    match row.postCompactionDispatch.bind DispatchMarker.lease with
    | none => .ok none
    | some lease =>
      match lease.ownerId.filter (· != "") with
      | none => .error "post-compaction dispatch lease has no owner"
      | some ownerId =>
        match lease.generation.filter (0 < ·) with
        | none => .error "post-compaction dispatch lease has invalid generation"
        | some generation =>
          match lease.expiresAtMs.filter (0 < ·) with
          | none => .error "post-compaction dispatch lease has invalid expiration"
          | some _ => .ok (some { ownerId, generation, contextLeafId })

def postCompactionDispatchLeaseExpiresAtMs : Except String (Option Nat) :=
  match row.postCompactionDispatch.bind DispatchMarker.lease with
  | none => .ok none
  | some lease =>
    match lease.expiresAtMs.filter (0 < ·) with
    | none => .error "post-compaction dispatch lease has invalid expiration"
    | some expiresAtMs => .ok (some expiresAtMs)

def setPostCompactionDispatchLease (lease : PostCompactionDispatchLease)
    (expiresAtMs : Nat) : Except String MarkedAction :=
  match row.postCompactionDispatch with
  | none => .error "post-compaction dispatch marker is not an object"
  | some marker =>
    .ok
      { row with
        postCompactionDispatch := some
          { marker with
            lease := some
              { ownerId := some lease.ownerId
                generation := some lease.generation
                expiresAtMs := some expiresAtMs } } }

def moveExpiration (expiresAtMs : Nat) : MarkedAction :=
  { row with
    postCompactionDispatch := row.postCompactionDispatch.map fun marker =>
      { marker with
        lease := marker.lease.map fun stored => { stored with expiresAtMs := some expiresAtMs } } }

def holdsLease (lease : PostCompactionDispatchLease) (nowMs : Nat) : Bool :=
  match row.postCompactionDispatch with
  | none => false
  | some marker =>
    marker.actionRowId == some row.id && marker.attemptId == some row.attemptId
      && marker.contextLeafId == some lease.contextLeafId
      && match marker.lease with
        | none => false
        | some stored =>
          stored.ownerId == some lease.ownerId && stored.generation == some lease.generation
            && stored.expiresAtMs.any (nowMs < ·)

/-- Without a lease a statement reaches only unmarked rows. -/
def passesFence (lease : Option PostCompactionDispatchLease) (nowMs : Nat) : Bool :=
  match lease with
  | none => row.postCompactionDispatch.isNone
  | some lease => row.holdsLease lease nowMs

end MarkedAction

structure PostCompactionDispatchIntent where
  rowId : String
  attemptId : String

/-- What identifies a marker that a claim found to be corrupt. -/
structure PostCompactionDispatchFence where
  status : ActionStatus
  marker : DispatchMarker
  lease : Option PostCompactionDispatchLease

inductive PostCompactionDispatchClaimError where
  | corrupt (message : String) (fence : PostCompactionDispatchFence)
  | transient (message : String)

inductive DelegationStatus where
  | running
  | cancelling
  | done
  | doneWithFailures
  | cancelled
  | failed
deriving DecidableEq

structure SessionBinding where
  parentSessionId : Option String
  delegationId : Option String
deriving DecidableEq

/-- What a claim reads besides the action row, and the owner it draws. The binding
is read before the locks are taken and once more under them. -/
structure ClaimContext where
  binding : Option SessionBinding
  delegationStatus : Option DelegationStatus
  lockedBinding : SessionBinding
  activeLeafId : Option EntryId
  modelContextRead : Except String Unit
  routeRead : Except String Unit
  ownerId : String
  ownerNamed : ownerId ≠ ""

def ClaimContext.admits (context : ClaimContext) : Bool :=
  match context.binding with
  | none => false
  | some binding =>
    (match binding.delegationId with
      | none => true
      | some _ => binding.parentSessionId.isSome && context.delegationStatus == some .running)
      && context.lockedBinding == binding

def markerLeaseFence (marker : DispatchMarker) : Option PostCompactionDispatchLease :=
  match marker.lease with
  | none => none
  | some stored =>
    match stored.ownerId, stored.generation, marker.contextLeafId with
    | some ownerId, some generation, some contextLeafId =>
      some { ownerId, generation, contextLeafId }
    | _, _, _ => none

/-- The generation a claim is to install, if the dispatch is free. -/
def claimableGeneration (status : ActionStatus) (priorLease : Option PostCompactionDispatchLease)
    (priorExpiration : Option Nat) (nowMs : Nat) : Except String (Option Nat) :=
  match status, priorLease, priorExpiration with
  | .pending, none, none => .ok (some 1)
  | .running, some lease, some expiresAtMs =>
    if expiresAtMs ≤ nowMs then
      if lease.generation + 1 < 2 ^ 64 then .ok (some (lease.generation + 1))
      else .error "post-compaction dispatch generation overflow"
    else .ok none
  | .pending, _, _ => .error "pending post-compaction dispatch unexpectedly carries a lease"
  | .running, _, _ => .error "running post-compaction dispatch has no valid lease"
  | _, _, _ => .ok none

def leaseDuration (leaseDurationMs : Nat) : Except String Nat :=
  if 2 ^ 63 ≤ leaseDurationMs then .error "post-compaction dispatch lease duration is too large"
  else .ok (max leaseDurationMs 1)

/-- The sum of two 64-bit values, or the error of an overflow. -/
def checkedAdd (overflow : String) (first second : Nat) : Except String Nat :=
  if 2 ^ 63 ≤ first + second then .error overflow else .ok (first + second)

def leaseExpiration (leaseDurationMs nowMs : Nat) : Except String Nat := do
  let durationMs ← leaseDuration leaseDurationMs
  checkedAdd "post-compaction dispatch lease expiration overflow" nowMs durationMs

namespace MarkedAction

section

variable (row : MarkedAction)

section

variable (intent : PostCompactionDispatchIntent)

/-- The rows a claim selects. -/
def isDispatchOf : Bool :=
  row.isAttempt intent.rowId intent.attemptId
    && (row.status == .pending || row.status == .running) && row.isModel

def claimGeneration
    (activeLeafId : Option EntryId) (nowMs : Nat) : Except String (EntryId × Option Nat) := do
  let contextLeafId ← row.postCompactionDispatchContextLeafId intent.rowId intent.attemptId
  if activeLeafId != some contextLeafId then
    throw "post-compaction dispatch context leaf is not the session active leaf"
  let priorLease ← row.postCompactionDispatchLease intent.rowId intent.attemptId
  let priorExpiration ← row.postCompactionDispatchLeaseExpiresAtMs
  let generation ← claimableGeneration row.status priorLease priorExpiration nowMs
  return (contextLeafId, generation)

def claimLease (leaseDurationMs nowMs : Nat) (context : ClaimContext) :
    Except PostCompactionDispatchClaimError (Option (MarkedAction × PostCompactionDispatchLease)) :=
  match context.admits && row.isDispatchOf intent, row.postCompactionDispatch with
  | false, _ | true, none => .ok none
  | true, some marker =>
    let corrupt := fun message =>
      PostCompactionDispatchClaimError.corrupt message
        { status := row.status, marker, lease := markerLeaseFence marker }
    match row.claimGeneration intent context.activeLeafId nowMs with
    | .error message => .error (corrupt message)
    | .ok (_, none) => .ok none
    | .ok (contextLeafId, some generation) =>
      let lease := { ownerId := context.ownerId, generation, contextLeafId }
      match leaseExpiration leaseDurationMs nowMs with
      | .error message => .error (.transient message)
      | .ok expiresAtMs =>
        match row.setPostCompactionDispatchLease lease expiresAtMs with
        | .error message => .error (corrupt message)
        | .ok leased =>
          match context.modelContextRead with
          | .error message => .error (.transient message)
          | .ok () =>
            .ok (some ({ leased with action := leased.action.setStatus .running }, lease))

def claimPostCompactionModelAction (leaseDurationMs nowMs : Nat) (context : ClaimContext) :
    MarkedAction × Except PostCompactionDispatchClaimError (Option PostCompactionDispatchLease) :=
  match row.claimLease intent leaseDurationMs nowMs context with
  | .error error => (row, .error error)
  | .ok none => (row, .ok none)
  | .ok (some (claimed, lease)) =>
    match context.routeRead with
    | .error message => (claimed, .error (.transient message))
    | .ok () => (claimed, .ok (some lease))

end

def renewPostCompactionDispatchLease (actionRowId attemptId : String)
    (lease : PostCompactionDispatchLease) (leaseDurationMs nowMs : Nat) :
    Except String (Option MarkedAction) := do
  let durationMs ← leaseDuration leaseDurationMs
  if row.isAttempt actionRowId attemptId && row.isModel && row.status == .running
      && row.holdsLease lease nowMs then
    let expiresAtMs ← checkedAdd "bigint out of range" nowMs durationMs
    return some (row.moveExpiration expiresAtMs)
  else return none

end

end MarkedAction

/-- How an action ended, from the runner that holds the lease. -/
structure LeasedActionUpdate where
  rowId : String
  attemptId : String
  lease : Option PostCompactionDispatchLease
  status : ActionStatus

/-- A model action to be blocked, before its dispatch or after it, and what reading
its compaction source gave. -/
structure BlockRequest where
  rowId : String
  attemptId : String
  expectedStatus : ActionStatus
  dispatchable : expectedStatus = .pending ∨ expectedStatus = .running
  lease : Option PostCompactionDispatchLease
  sourceRead : Except String Unit

namespace MarkedAction

section

variable (row : MarkedAction)

variable (update : LeasedActionUpdate)

def canComplete (nowMs : Nat) : Bool :=
  row.isAttempt update.rowId update.attemptId
    && (row.status == .pending || row.status == .running) && row.passesFence update.lease nowMs

/-- The first statement of a completion decides the status from the events. -/
def resolveUpdate (events : List SessionEvent) (nowMs : Nat) : LeasedActionUpdate :=
  if row.canComplete update nowMs then
    { update with status := completedStatus row.action update.status events }
  else update

/-- The second statement of a completion; the transaction fails where it misses. -/
def completeActionTx (nowMs : Nat) : Option MarkedAction :=
  if row.canComplete update nowMs then some (row.settle update.status) else none

def canBlock (request : BlockRequest) (nowMs : Nat) : Bool :=
  row.isAttempt request.rowId request.attemptId && row.isModel
    && row.status == request.expectedStatus && row.passesFence request.lease nowMs

/-- The row is read and updated under one lock, with the clock read twice. -/
def blockModelActionForCompaction (request : BlockRequest)
    (nowMs laterMs : Nat) : Except String MarkedAction :=
  if !row.canBlock request nowMs then
    .error (request.expectedStatus.asStr ++ " model action not found: " ++ request.rowId)
  else
    match request.sourceRead with
    | .error message => .error message
    | .ok () =>
      if row.canBlock request laterMs then .ok (row.settle .blocked)
      else
        .error (request.expectedStatus.asStr ++ " model action was not blocked: " ++ request.rowId)

def markActionStale (actionRowId attemptId : String)
    (lease : Option PostCompactionDispatchLease) (nowMs : Nat) : Option MarkedAction :=
  if row.isAttempt actionRowId attemptId && row.status.isUnfinished
      && row.passesFence lease nowMs then
    some (row.settle .stale)
  else none

def failUnfinishedModelAction (actionRowId attemptId : String)
    (lease : Option PostCompactionDispatchLease) (nowMs : Nat) : Option MarkedAction :=
  if row.isAttempt actionRowId attemptId && row.isModel && row.status.isUnfinished
      && (row.passesFence lease nowMs || lease.isNone && row.status == .pending) then
    some (row.settle .error)
  else none

def claimPendingModelAction (actionRowId attemptId : String) : Option MarkedAction :=
  if row.isAttempt actionRowId attemptId && row.isModel && row.status == .pending
      && row.postCompactionDispatch.isNone then
    some { row with action := row.action.setStatus .running }
  else none

def cancelUnfinishedSessionWork : MarkedAction :=
  if row.status.isUnfinished then row.settle .interrupted else row

/-- Recovery leaves a marked dispatch to be claimed again. -/
def markUnfinishedActionsStale : MarkedAction :=
  if row.status.isUnfinished
      && !((row.status == .pending || row.status == .running) && row.isModel
        && row.postCompactionDispatch.isSome) then
    row.settle .stale
  else row

end

variable {row claimed : MarkedAction} {nowMs leaseDurationMs : Nat}
    {intent : PostCompactionDispatchIntent} {context : ClaimContext}
    {lease : PostCompactionDispatchLease}

theorem canComplete_fence {update : LeasedActionUpdate} (completes : row.canComplete update nowMs) :
    row.status.isUnfinished ∧ row.passesFence update.lease nowMs := by
  rw [canComplete, Bool.and_eq_true, Bool.and_eq_true, Bool.or_eq_true, beq_iff_eq,
    beq_iff_eq] at completes
  obtain ⟨⟨_, pending | running⟩, fence⟩ := completes
  · exact ⟨by rw [pending]; rfl, fence⟩
  · exact ⟨by rw [running]; rfl, fence⟩

theorem canBlock_fence {request : BlockRequest} (blocks : row.canBlock request nowMs) :
    row.status.isUnfinished ∧ row.passesFence request.lease nowMs := by
  rw [canBlock, Bool.and_eq_true, Bool.and_eq_true, beq_iff_eq] at blocks
  refine ⟨?_, blocks.2⟩
  rw [blocks.1.2]
  rcases request.dispatchable with pending | running
  · rw [pending]
    rfl
  · rw [running]
    rfl

@[simp] theorem settle_status (row : MarkedAction) (status : ActionStatus) :
    (row.settle status).status = status := rfl

theorem holdsLease_of_unmarked (unmarked : row.postCompactionDispatch = none)
    (lease : PostCompactionDispatchLease) (nowMs : Nat) : row.holdsLease lease nowMs = false := by
  rw [holdsLease, unmarked]

def dispatchMarker (row : MarkedAction) (contextLeafId : EntryId) (lease : Option StoredLease) :
    DispatchMarker where
  kind := some postCompactionDispatchKind
  actionRowId := some row.id
  attemptId := some row.attemptId
  contextLeafId := some contextLeafId
  lease := lease

/-- A dispatch that nobody has claimed. -/
structure Unclaimed (row : MarkedAction) (contextLeafId : EntryId) : Prop where
  pending : row.status = .pending
  payload : row.action.payload = .model (some contextLeafId)
  marker : row.postCompactionDispatch = some (row.dispatchMarker contextLeafId none)

/-- A dispatch under a lease. -/
structure Claimed (row : MarkedAction) (lease : PostCompactionDispatchLease) (expiresAtMs : Nat) :
    Prop where
  running : row.status = .running
  payload : row.action.payload = .model (some lease.contextLeafId)
  marker : row.postCompactionDispatch = some (row.dispatchMarker lease.contextLeafId
    (some
      { ownerId := some lease.ownerId
        generation := some lease.generation
        expiresAtMs := some expiresAtMs }))
  named : lease.ownerId ≠ ""
  counted : 0 < lease.generation
  lasting : 0 < expiresAtMs

theorem releaseForDispatch_unclaimed (row : MarkedAction) (contextLeafId : EntryId) :
    (row.releaseForDispatch contextLeafId).Unclaimed contextLeafId :=
  ⟨rfl, rfl, rfl⟩

namespace Unclaimed

variable {row : MarkedAction} {contextLeafId : EntryId}

section

variable (unclaimed : row.Unclaimed contextLeafId)
include unclaimed

theorem readContextLeaf :
    row.postCompactionDispatchContextLeafId row.id row.attemptId = .ok contextLeafId := by
  simp [postCompactionDispatchContextLeafId, unclaimed.marker, dispatchMarker,
    modelActionContextLeafId, unclaimed.payload]

theorem readLease : row.postCompactionDispatchLease row.id row.attemptId = .ok none := by
  rw [postCompactionDispatchLease, unclaimed.readContextLeaf, unclaimed.marker]
  rfl

theorem readExpiration : row.postCompactionDispatchLeaseExpiresAtMs = .ok none := by
  rw [postCompactionDispatchLeaseExpiresAtMs, unclaimed.marker]
  rfl

theorem holdsLease
    (lease : PostCompactionDispatchLease) (nowMs : Nat) : row.holdsLease lease nowMs = false := by
  simp [MarkedAction.holdsLease, unclaimed.marker, dispatchMarker]

end

end Unclaimed

namespace Claimed

variable {row : MarkedAction} {lease : PostCompactionDispatchLease} {expiresAtMs : Nat}

section

variable (holds : row.Claimed lease expiresAtMs)
include holds

theorem readContextLeaf :
    row.postCompactionDispatchContextLeafId row.id row.attemptId = .ok lease.contextLeafId := by
  simp [postCompactionDispatchContextLeafId, holds.marker, dispatchMarker,
    modelActionContextLeafId, holds.payload]

theorem readLease :
    row.postCompactionDispatchLease row.id row.attemptId = .ok (some lease) := by
  rw [postCompactionDispatchLease, holds.readContextLeaf, holds.marker]
  simp [dispatchMarker, Option.filter, holds.named, holds.counted, holds.lasting]

theorem readExpiration :
    row.postCompactionDispatchLeaseExpiresAtMs = .ok (some expiresAtMs) := by
  rw [postCompactionDispatchLeaseExpiresAtMs, holds.marker]
  simp [dispatchMarker, Option.filter, holds.lasting]

theorem holdsLease_iff (other : PostCompactionDispatchLease) (nowMs : Nat) :
    row.holdsLease other nowMs ↔ other = lease ∧ nowMs < expiresAtMs := by
  obtain ⟨_, _, _⟩ := lease
  obtain ⟨_, _, _⟩ := other
  simp [holdsLease, holds.marker, dispatchMarker]
  grind

end

theorem moveExpiration (claimed : row.Claimed lease expiresAtMs) {laterMs : Nat}
    (lasting : 0 < laterMs) : (row.moveExpiration laterMs).Claimed lease laterMs :=
  { claimed with
    marker := by
      rw [MarkedAction.moveExpiration, claimed.marker]
      rfl
    lasting := lasting }

end Claimed

theorem leaseExpiration_pos {expiresAtMs : Nat}
    (ends : leaseExpiration leaseDurationMs nowMs = .ok expiresAtMs) : 0 < expiresAtMs := by
  simp only [leaseExpiration, leaseDuration, checkedAdd] at ends
  split at ends
  · cases ends
  · change (if _ then _ else _) = _ at ends
    split at ends
    · cases ends
    · cases ends
      omega

theorem claimLease_of_unmarked (unmarked : row.postCompactionDispatch = none)
    (intent : PostCompactionDispatchIntent) (leaseDurationMs nowMs : Nat) (context : ClaimContext) :
    row.claimLease intent leaseDurationMs nowMs context = .ok none := by
  rw [claimLease, unmarked]
  cases context.admits && row.isDispatchOf intent <;> rfl

theorem claimLease_some
    (claims : row.claimLease intent leaseDurationMs nowMs context = .ok (some (claimed, lease))) :
    row.isAttempt intent.rowId intent.attemptId ∧
      row.claimGeneration intent context.activeLeafId nowMs =
        .ok (lease.contextLeafId, some lease.generation) ∧
      lease.ownerId = context.ownerId ∧
      ∃ expiresAtMs, 0 < expiresAtMs ∧ ∃ marker, row.postCompactionDispatch = some marker ∧
        claimed =
          { row with
            action := row.action.setStatus .running
            postCompactionDispatch := some
              { marker with
                lease := some
                  { ownerId := some lease.ownerId
                    generation := some lease.generation
                    expiresAtMs := some expiresAtMs } } } := by
  rw [claimLease] at claims
  split at claims
  · cases claims
  · cases claims
  rename_i marker admitted hMarker
  rw [Bool.and_eq_true, isDispatchOf, Bool.and_eq_true, Bool.and_eq_true] at admitted
  refine ⟨admitted.2.1.1, ?_⟩
  simp only at claims
  split at claims
  · cases claims
  · cases claims
  rename_i contextLeafId generation hGeneration
  split at claims
  · cases claims
  rename_i expiresAtMs hExpires
  rw [setPostCompactionDispatchLease, hMarker] at claims
  simp only at claims
  split at claims
  · cases claims
  · cases claims
    exact ⟨hGeneration, rfl, expiresAtMs, leaseExpiration_pos hExpires, marker, hMarker, rfl⟩

theorem isAttempt_eq {actionRowId attemptId : String}
    (named : row.isAttempt actionRowId attemptId) :
    actionRowId = row.id ∧ attemptId = row.attemptId := by
  rw [isAttempt, Bool.and_eq_true, beq_iff_eq, beq_iff_eq] at named
  exact ⟨named.1.symm, named.2.symm⟩

theorem claimGeneration_some {activeLeafId : Option EntryId} {generation : Nat}
    {markerLeaf contextLeafId : EntryId} {priorLease : Option PostCompactionDispatchLease}
    {priorExpiration : Option Nat}
    (leaf : row.postCompactionDispatchContextLeafId intent.rowId intent.attemptId = .ok markerLeaf)
    (lease : row.postCompactionDispatchLease intent.rowId intent.attemptId = .ok priorLease)
    (expiration : row.postCompactionDispatchLeaseExpiresAtMs = .ok priorExpiration)
    (claimable : row.claimGeneration intent activeLeafId nowMs =
      .ok (contextLeafId, some generation)) :
    contextLeafId = markerLeaf ∧
      claimableGeneration row.status priorLease priorExpiration nowMs = .ok (some generation) := by
  rw [claimGeneration, leaf, lease, expiration] at claimable
  by_cases active : activeLeafId = some markerLeaf
  · cases hGeneration : claimableGeneration row.status priorLease priorExpiration nowMs with
    | error => simp [hGeneration, active, bind, Except.bind] at claimable
    | ok =>
      simp [hGeneration, active, bind, Except.bind, pure, Except.pure] at claimable
      exact ⟨claimable.1.symm, by rw [claimable.2]⟩
  · simp [active, bind, Except.bind, throw, throwThe, MonadExceptOf.throw] at claimable

theorem Unclaimed.claims {contextLeafId : EntryId} (unclaimed : row.Unclaimed contextLeafId)
    (claims : row.claimLease intent leaseDurationMs nowMs context = .ok (some (claimed, lease))) :
    ∃ expiresAtMs, claimed.Claimed lease expiresAtMs := by
  obtain ⟨named, hGeneration, owner, expiresAtMs, lasting, marker, hMarker, rfl⟩ :=
    claimLease_some claims
  obtain ⟨hRow, hAttempt⟩ := isAttempt_eq named
  obtain ⟨hLeaf, claimable⟩ := claimGeneration_some
    (by rw [hRow, hAttempt]; exact unclaimed.readContextLeaf)
    (by rw [hRow, hAttempt]; exact unclaimed.readLease) unclaimed.readExpiration hGeneration
  rw [unclaimed.pending] at claimable
  have first : 1 = lease.generation := Option.some.inj (Except.ok.inj claimable)
  cases unclaimed.marker.symm.trans hMarker
  refine ⟨expiresAtMs, ?_⟩
  exact
    { running := rfl
      payload := by
        rw [hLeaf]
        exact unclaimed.payload
      marker := by
        rw [hLeaf]
        rfl
      named := by
        rw [owner]
        exact context.ownerNamed
      counted := by
        rw [← first]
        exact Nat.one_pos
      lasting := lasting }

/-- A lease is taken over only when it has run out. -/
theorem Claimed.claims {held : PostCompactionDispatchLease} {heldUntil : Nat}
    (holds : row.Claimed held heldUntil)
    (claims : row.claimLease intent leaseDurationMs nowMs context = .ok (some (claimed, lease))) :
    heldUntil ≤ nowMs ∧ lease.generation = held.generation + 1 ∧
      ∃ expiresAtMs, claimed.Claimed lease expiresAtMs := by
  obtain ⟨named, hGeneration, owner, expiresAtMs, lasting, marker, hMarker, rfl⟩ :=
    claimLease_some claims
  obtain ⟨hRow, hAttempt⟩ := isAttempt_eq named
  obtain ⟨hLeaf, claimable⟩ := claimGeneration_some
    (by rw [hRow, hAttempt]; exact holds.readContextLeaf)
    (by rw [hRow, hAttempt]; exact holds.readLease) holds.readExpiration hGeneration
  rw [holds.running] at claimable
  rw [claimableGeneration] at claimable
  split at claimable
  · rename_i expired
    split at claimable
    · have next := Option.some.inj (Except.ok.inj claimable)
      cases holds.marker.symm.trans hMarker
      refine ⟨expired, next.symm, expiresAtMs, ?_⟩
      exact
        { running := rfl
          payload := by
            rw [hLeaf]
            exact holds.payload
          marker := by
            rw [hLeaf]
            rfl
          named := by
            rw [owner]
            exact context.ownerNamed
          counted := by
            rw [← next]
            exact Nat.succ_pos _
          lasting := lasting }
    · cases claimable
  · cases claimable

theorem renew_some {renewed : MarkedAction} {actionRowId attemptId : String}
    (renews : row.renewPostCompactionDispatchLease actionRowId attemptId lease leaseDurationMs
      nowMs = .ok (some renewed)) :
    row.holdsLease lease nowMs ∧
      ∃ expiresAtMs, 0 < expiresAtMs ∧ renewed = row.moveExpiration expiresAtMs := by
  simp only [renewPostCompactionDispatchLease, leaseDuration, checkedAdd] at renews
  split at renews
  · cases renews
  · change (if _ then _ else _) = _ at renews
    split at renews
    · rename_i admitted
      rw [Bool.and_eq_true] at admitted
      split at renews
      · cases renews
      · cases renews
        exact ⟨admitted.2, _, by omega, rfl⟩
    · cases renews

end MarkedAction

end PiRelay.Store
