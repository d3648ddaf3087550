import PiRelay.AgentStore.DispatchLeases
import PiRelay.Library.Machine

/-! The life of one post-compaction dispatch under any number of workers. Each transaction
modelled here holds the lock of the session, so two of them never overlap; a renewal is a
single statement outside that lock and can fall between the two statements of a completion.
The interrupts of a scoped control, at a turn boundary or with an output, only set the status
and keep the marker, and are not operations of this machine. -/
namespace PiRelay.Store

open AgentCore Session MarkedAction Option
open Library (Machine)

/-- The row with the database clock, the completion whose transaction is open, and
what the run has seen so far: the leases that claims returned, the latest first,
and the number of times the action was completed. -/
structure DispatchState where
  action : MarkedAction
  clockMs : Nat
  completing : Option LeasedActionUpdate
  granted : List PostCompactionDispatchLease
  completions : Nat

inductive DispatchOperation where
  | claim (intent : PostCompactionDispatchIntent) (leaseDurationMs : Nat) (context : ClaimContext)
  | renew (actionRowId attemptId : String) (lease : PostCompactionDispatchLease)
      (leaseDurationMs : Nat)
  | beginCompletion (update : LeasedActionUpdate) (events : List SessionEvent)
  | commitCompletion (cancels : Bool)
  | rollBack
  | block (request : BlockRequest) (laterMs : Nat)
  | claimPending (actionRowId attemptId : String)
  | fail (actionRowId attemptId : String) (lease : Option PostCompactionDispatchLease)
  | markStale (actionRowId attemptId : String) (lease : Option PostCompactionDispatchLease)
  | cancel
  | markUnfinishedStale
  | wait

namespace DispatchState

def released (row : MarkedAction) (contextLeafId : EntryId) (clockMs : Nat) : DispatchState where
  action := row.releaseForDispatch contextLeafId
  clockMs := clockMs
  completing := none
  granted := []
  completions := 0

variable (state : DispatchState)

/-- The row after a statement that may miss it. -/
def update (updated : Option MarkedAction) : DispatchState :=
  { state with action := updated.getD state.action }

/-- A transaction that starts while another one holds the session lock has to wait. -/
def locked (after : DispatchState) : Option DispatchState :=
  if state.completing.isNone then some after else none

def claim (intent : PostCompactionDispatchIntent) (leaseDurationMs : Nat)
    (context : ClaimContext) : DispatchState :=
  let (action, result) :=
    state.action.claimPostCompactionModelAction intent leaseDurationMs state.clockMs context
  { state with
    action
    granted :=
      match result with
      | .ok (some lease) => lease :: state.granted
      | .ok none | .error _ => state.granted }

def commitCompletion (update : LeasedActionUpdate) (cancels : Bool) : DispatchState :=
  match state.action.completeActionTx update state.clockMs with
  | none => { state with completing := none }
  | some completed =>
    { state with
      action := if cancels then completed.cancelUnfinishedSessionWork else completed
      completing := none
      completions :=
        if update.status = .completed then state.completions + 1 else state.completions }

def perform : DispatchOperation → Option DispatchState
  | .claim intent leaseDurationMs context =>
    state.locked (state.claim intent leaseDurationMs context)
  | .renew actionRowId attemptId lease leaseDurationMs =>
    some (state.update
      ((state.action.renewPostCompactionDispatchLease actionRowId attemptId lease leaseDurationMs
        state.clockMs).toOption.bind id))
  | .beginCompletion update events =>
    state.locked
      { state with completing := some (state.action.resolveUpdate update events state.clockMs) }
  | .commitCompletion cancels =>
    state.completing.map fun update => state.commitCompletion update cancels
  | .rollBack => state.completing.map fun _ => { state with completing := none }
  | .block request laterMs =>
    if state.clockMs ≤ laterMs then
      state.locked
        { state.update
            (state.action.blockModelActionForCompaction request state.clockMs laterMs).toOption with
          clockMs := laterMs }
    else none
  | .claimPending actionRowId attemptId =>
    state.locked (state.update (state.action.claimPendingModelAction actionRowId attemptId))
  | .fail actionRowId attemptId lease =>
    state.locked (state.update
      (state.action.failUnfinishedModelAction actionRowId attemptId lease state.clockMs))
  | .markStale actionRowId attemptId lease =>
    state.locked (state.update
      (state.action.markActionStale actionRowId attemptId lease state.clockMs))
  | .cancel => state.locked { state with action := state.action.cancelUnfinishedSessionWork }
  | .markUnfinishedStale =>
    state.locked { state with action := state.action.markUnfinishedActionsStale }
  | .wait => some state

/-- An operation happens at a time that is not before the clock. -/
def step (timed : Nat × DispatchOperation) : Option DispatchState :=
  if state.clockMs ≤ timed.1 then ({ state with clockMs := timed.1 }).perform timed.2 else none

inductive Effect (nowMs : Nat) : MarkedAction → MarkedAction → Prop where
  | same (row : MarkedAction) : Effect nowMs row row
  | settled {row : MarkedAction} (unfinished : row.status.isUnfinished = true)
      (status : ActionStatus) (incomplete : status ≠ .completed) :
      Effect nowMs row (row.settle status)
  | renewed {row : MarkedAction} {lease : PostCompactionDispatchLease} {expiresAtMs : Nat}
      (held : row.holdsLease lease nowMs = true) (lasting : 0 < expiresAtMs) :
      Effect nowMs row (row.moveExpiration expiresAtMs)
  | started {row : MarkedAction} (unmarked : row.postCompactionDispatch = none)
      (pending : row.status = .pending) :
      Effect nowMs row { row with action := row.action.setStatus .running }

theorem cancel_effect (nowMs : Nat) (row : MarkedAction) :
    Effect nowMs row row.cancelUnfinishedSessionWork := by
  rw [cancelUnfinishedSessionWork]
  split
  · rename_i unfinished
    exact .settled unfinished .interrupted nofun
  · exact .same row

theorem markUnfinishedStale_effect (nowMs : Nat) (row : MarkedAction) :
    Effect nowMs row row.markUnfinishedActionsStale := by
  rw [markUnfinishedActionsStale]
  split
  · rename_i admitted
    rw [Bool.and_eq_true] at admitted
    exact .settled admitted.1 .stale nofun
  · exact .same row

theorem block_effect {nowMs laterMs : Nat} {row blocked : MarkedAction} {request : BlockRequest}
    (blocks : row.blockModelActionForCompaction request nowMs laterMs = .ok blocked) :
    blocked = row.settle .blocked ∧ row.canBlock request nowMs := by
  rw [blockModelActionForCompaction] at blocks
  split at blocks
  · cases blocks
  · rename_i selected
    rw [Bool.not_eq_true, Bool.not_eq_false'] at selected
    split at blocks
    · cases blocks
    · split at blocks
      · cases blocks
        exact ⟨rfl, selected⟩
      · cases blocks

theorem cancel_settle (row : MarkedAction) (status : ActionStatus) :
    (row.settle status).cancelUnfinishedSessionWork =
      row.settle (if status.isUnfinished then .interrupted else status) := by
  rw [cancelUnfinishedSessionWork, settle_status]
  split <;> rfl

/-- What one operation does to the state, beside the clock. -/
inductive Performs (before after : DispatchState) : Prop where
  | keeps (effect : Effect before.clockMs before.action after.action)
      (granted : after.granted = before.granted)
      (completions : after.completions = before.completions)
  | completes (unfinished : before.action.status.isUnfinished = true)
      (settled : after.action = before.action.settle .completed)
      (granted : after.granted = before.granted)
      (completions : after.completions = before.completions + 1)
  | claims {intent : PostCompactionDispatchIntent} {leaseDurationMs : Nat}
      {context : ClaimContext} {lease : PostCompactionDispatchLease}
      (claimed : before.action.claimLease intent leaseDurationMs before.clockMs context =
        .ok (some (after.action, lease)))
      (granted : after.granted = before.granted ∨ after.granted = lease :: before.granted)
      (completions : after.completions = before.completions)

variable {state : DispatchState}

theorem locked_some {after result : DispatchState} (performed : state.locked after = some result) :
    result = after := by
  rw [locked] at performed
  split at performed
  · exact (Option.some.inj performed).symm
  · cases performed

theorem claim_performs (state : DispatchState) (intent : PostCompactionDispatchIntent)
    (leaseDurationMs : Nat) (context : ClaimContext) :
    Performs state (state.claim intent leaseDurationMs context) := by
  rw [claim, claimPostCompactionModelAction]
  cases hClaims : state.action.claimLease intent leaseDurationMs state.clockMs context with
  | error => exact .keeps (.same _) rfl rfl
  | ok found =>
    cases found with
    | none => exact .keeps (.same _) rfl rfl
    | some claimed =>
      obtain ⟨_, _⟩ := claimed
      cases hRoute : context.routeRead with
      | error => exact .claims hClaims (.inl rfl) rfl
      | ok => exact .claims hClaims (.inr rfl) rfl

theorem commitCompletion_performs (state : DispatchState) (update : LeasedActionUpdate)
    (cancels : Bool) : Performs state (state.commitCompletion update cancels) := by
  rw [commitCompletion, completeActionTx]
  by_cases completes : state.action.canComplete update state.clockMs
  · have unfinished := (canComplete_fence completes).1
    rw [if_pos completes]
    by_cases done : update.status = .completed
    · refine .completes unfinished ?_ rfl (if_pos done)
      cases cancels with
      | false => exact congrArg state.action.settle done
      | true =>
        have settled := cancel_settle state.action update.status
        rw [done] at settled
        exact (congrArg (fun status =>
          (state.action.settle status).cancelUnfinishedSessionWork) done).trans settled
    · refine .keeps ?_ rfl (if_neg done)
      cases cancels with
      | false => exact .settled unfinished update.status done
      | true =>
        show Effect _ _ (state.action.settle update.status).cancelUnfinishedSessionWork
        rw [cancel_settle]
        refine .settled unfinished _ ?_
        split
        · nofun
        · exact done
  · rw [if_neg completes]
    exact .keeps (.same _) rfl rfl

theorem update_performs {updated : Option MarkedAction}
    (effect : ∀ row, updated = some row → Effect state.clockMs state.action row) :
    Performs state (state.update updated) := by
  cases updated with
  | none => exact .keeps (.same _) rfl rfl
  | some row => exact .keeps (effect row rfl) rfl rfl

/-- An operation does what the fence permits; the clock goes on. -/
theorem perform_performs {after : DispatchState} {operation : DispatchOperation}
    (performed : state.perform operation = some after) :
    Performs state after ∧ state.clockMs ≤ after.clockMs := by
  cases operation with
  | claim =>
    obtain rfl := locked_some performed
    exact ⟨claim_performs .., Nat.le_refl _⟩
  | renew actionRowId attemptId lease leaseDurationMs =>
    obtain rfl := (Option.some.inj performed).symm
    refine ⟨update_performs ?_, Nat.le_refl _⟩
    intro row renewed
    obtain ⟨_, hFound, hRow⟩ := bind_eq_some_iff.mp renewed
    cases hRenews : state.action.renewPostCompactionDispatchLease actionRowId attemptId lease
        leaseDurationMs state.clockMs with
    | error message =>
      rw [hRenews] at hFound
      cases hFound
    | ok result =>
      rw [hRenews] at hFound
      cases hFound
      obtain rfl := hRow
      obtain ⟨held, _, lasting, rfl⟩ := renew_some hRenews
      exact .renewed held lasting
  | beginCompletion =>
    obtain rfl := locked_some performed
    exact ⟨.keeps (.same _) rfl rfl, Nat.le_refl _⟩
  | commitCompletion =>
    obtain ⟨update, _, rfl⟩ := map_eq_some_iff.mp performed
    refine ⟨commitCompletion_performs .., ?_⟩
    rw [commitCompletion]
    split <;> exact Nat.le_refl _
  | rollBack =>
    obtain ⟨update, _, rfl⟩ := map_eq_some_iff.mp performed
    exact ⟨.keeps (.same _) rfl rfl, Nat.le_refl _⟩
  | block request laterMs =>
    rw [perform] at performed
    split at performed
    · rename_i later
      obtain rfl := locked_some performed
      refine ⟨?_, later⟩
      cases hBlocks : state.action.blockModelActionForCompaction request state.clockMs
          laterMs with
      | error message => exact .keeps (.same _) rfl rfl
      | ok blocked =>
        obtain ⟨rfl, selected⟩ := block_effect hBlocks
        have unfinished := (canBlock_fence selected).1
        exact .keeps (.settled unfinished .blocked nofun) rfl rfl
    · cases performed
  | claimPending =>
    obtain rfl := locked_some performed
    refine ⟨update_performs ?_, Nat.le_refl _⟩
    intro row claimed
    rw [claimPendingModelAction] at claimed
    split at claimed
    · rename_i admitted
      cases claimed
      rw [Bool.and_eq_true, Bool.and_eq_true, beq_iff_eq, isNone_iff_eq_none] at admitted
      exact .started admitted.2 admitted.1.2
    · cases claimed
  | fail =>
    obtain rfl := locked_some performed
    refine ⟨update_performs ?_, Nat.le_refl _⟩
    intro row failed
    rw [failUnfinishedModelAction] at failed
    split at failed
    · rename_i admitted
      cases failed
      rw [Bool.and_eq_true, Bool.and_eq_true] at admitted
      exact .settled admitted.1.2 .error nofun
    · cases failed
  | markStale =>
    obtain rfl := locked_some performed
    refine ⟨update_performs ?_, Nat.le_refl _⟩
    intro row staled
    rw [markActionStale] at staled
    split at staled
    · rename_i admitted
      cases staled
      rw [Bool.and_eq_true, Bool.and_eq_true] at admitted
      exact .settled admitted.1.2 .stale nofun
    · cases staled
  | cancel =>
    obtain rfl := locked_some performed
    exact ⟨.keeps (cancel_effect _ _) rfl rfl, Nat.le_refl _⟩
  | markUnfinishedStale =>
    obtain rfl := locked_some performed
    exact ⟨.keeps (markUnfinishedStale_effect _ _) rfl rfl, Nat.le_refl _⟩
  | wait =>
    obtain rfl := (Option.some.inj performed).symm
    exact ⟨.keeps (.same _) rfl rfl, Nat.le_refl _⟩

/-- Every lease a claim has returned is the one in the marker or an older one, and
an action is completed at most once. -/
structure Fenced (state : DispatchState) : Prop where
  stage : state.action.postCompactionDispatch = none ∨
    (∃ contextLeafId, state.action.Unclaimed contextLeafId ∧ state.granted = []) ∨
    ∃ lease expiresAtMs, state.action.Claimed lease expiresAtMs ∧
      ∀ granted ∈ state.granted, granted.generation < lease.generation ∨ granted = lease
  ordered : state.granted.Pairwise fun later earlier => earlier.generation < later.generation
  once : state.completions = 0 ∨ state.completions = 1 ∧ state.action.status = .completed

/-- Runs of one dispatch from its release on. -/
def dispatches : Machine DispatchState (Nat × DispatchOperation) :=
  Machine.ofSteps (fun state => ∃ row contextLeafId clockMs, state = released row contextLeafId clockMs)
    step

theorem released_fenced (row : MarkedAction) (contextLeafId : EntryId) (clockMs : Nat) :
    (released row contextLeafId clockMs).Fenced where
  stage := .inr (.inl ⟨contextLeafId, row.releaseForDispatch_unclaimed contextLeafId, rfl⟩)
  ordered := .nil
  once := .inl rfl

namespace Fenced

variable {state after : DispatchState}

section

variable (fenced : state.Fenced)
include fenced

theorem setClock (nowMs : Nat) : ({ state with clockMs := nowMs } : DispatchState).Fenced :=
  ⟨fenced.stage, fenced.ordered, fenced.once⟩

theorem holdsLease_unique {first second : PostCompactionDispatchLease} {nowMs laterMs : Nat}
    (holds : state.action.holdsLease first nowMs)
    (holdsToo : state.action.holdsLease second laterMs) : first = second := by
  rcases fenced.stage with unmarked | ⟨_, unclaimed, _⟩ | ⟨lease, expiresAtMs, claimed, _⟩
  · rw [holdsLease_of_unmarked unmarked] at holds
    cases holds
  · rw [unclaimed.holdsLease] at holds
    cases holds
  · rw [((claimed.holdsLease_iff first nowMs).mp holds).1,
      ((claimed.holdsLease_iff second laterMs).mp holdsToo).1]

theorem incomplete (unfinished : state.action.status.isUnfinished) : state.completions = 0 := by
  rcases fenced.once with zero | ⟨_, completed⟩
  · exact zero
  · rw [completed] at unfinished
    cases unfinished

theorem effect (effect : Effect state.clockMs state.action after.action)
    (granted : after.granted = state.granted) (completions : after.completions = state.completions) :
    after.Fenced := by
  have ordered : after.granted.Pairwise fun later earlier =>
      earlier.generation < later.generation := granted ▸ fenced.ordered
  generalize hAction : after.action = action at effect
  cases effect with
  | same =>
    refine ⟨?_, ordered, ?_⟩
    · rw [hAction, granted]
      exact fenced.stage
    · rw [hAction, completions]
      exact fenced.once
  | settled unfinished _ incomplete =>
    refine ⟨.inl ?_, ordered, .inl ?_⟩
    · rw [hAction]
      rfl
    · rw [completions]
      exact fenced.incomplete unfinished
  | @renewed lease expiresAtMs held lasting =>
    refine ⟨?_, ordered, ?_⟩
    · rcases fenced.stage with unmarked | ⟨_, unclaimed, _⟩ | ⟨current, until_, claimed, older⟩
      · rw [holdsLease_of_unmarked unmarked] at held
        cases held
      · rw [unclaimed.holdsLease] at held
        cases held
      · rw [hAction, granted]
        exact .inr (.inr ⟨current, expiresAtMs, claimed.moveExpiration lasting, older⟩)
    · rw [hAction, completions]
      exact fenced.once
  | started unmarked pending =>
    refine ⟨.inl ?_, ordered, .inl ?_⟩
    · rw [hAction]
      exact unmarked
    · rw [completions]
      apply fenced.incomplete
      rw [pending]
      rfl

/-- A claim gets a generation above those granted before. -/
theorem claims {intent : PostCompactionDispatchIntent} {leaseDurationMs : Nat}
    {context : ClaimContext} {claimed : MarkedAction} {lease : PostCompactionDispatchLease}
    (claims : state.action.claimLease intent leaseDurationMs state.clockMs context =
      .ok (some (claimed, lease))) :
    state.action.status.isUnfinished ∧
      (∀ granted ∈ state.granted, granted.generation < lease.generation) ∧
      (∃ expiresAtMs, claimed.Claimed lease expiresAtMs) ∧
      ∀ older, state.action.holdsLease older state.clockMs = false := by
  rcases fenced.stage with unmarked | ⟨_, unclaimed, noneGranted⟩ | ⟨held, heldUntil, holds, older⟩
  · rw [claimLease_of_unmarked unmarked] at claims
    cases claims
  · refine ⟨?_, ?_, unclaimed.claims claims, fun _ => unclaimed.holdsLease _ _⟩
    · rw [unclaimed.pending]
      rfl
    · rw [noneGranted]
      nofun
  · obtain ⟨_, _, installed⟩ := holds.claims claims
    refine ⟨?_, ?_, installed, ?_⟩
    · rw [holds.running]
      rfl
    · intro granted mem
      rcases older granted mem with lower | rfl <;> omega
    · intro other
      cases hHolds : state.action.holdsLease other state.clockMs with
      | false => rfl
      | true =>
        have unexpired := ((holds.holdsLease_iff other state.clockMs).mp hHolds).2
        omega

theorem performs (performs : Performs state after) : after.Fenced := by
  cases performs with
  | keeps effect granted completions => exact fenced.effect effect granted completions
  | completes unfinished settled granted completions =>
    refine ⟨.inl ?_, ?_, .inr ⟨?_, ?_⟩⟩
    · rw [settled]
      rfl
    · rw [granted]
      exact fenced.ordered
    · rw [completions, fenced.incomplete unfinished]
    · rw [settled]
      rfl
  | @claims _ _ _ lease claimed granted completions =>
    obtain ⟨unfinished, newer, ⟨expiresAtMs, installed⟩, _⟩ := fenced.claims claimed
    refine ⟨.inr (.inr ⟨lease, expiresAtMs, installed, ?_⟩), ?_, .inl ?_⟩
    · intro other mem
      rcases granted with same | added
      · rw [same] at mem
        exact .inl (newer other mem)
      · rw [added] at mem
        rcases List.mem_cons.mp mem with rfl | old
        · exact .inr rfl
        · exact .inl (newer other old)
    · rcases granted with same | added
      · rw [same]
        exact fenced.ordered
      · rw [added]
        exact .cons newer fenced.ordered
    · rw [completions]
      exact fenced.incomplete unfinished

theorem step {timed : Nat × DispatchOperation} (stepped : state.step timed = some after) :
    after.Fenced := by
  rw [DispatchState.step] at stepped
  split at stepped
  · exact (fenced.setClock timed.1).performs (perform_performs stepped).1
  · cases stepped

end

end Fenced

theorem fenced_of_reaches (reaches : dispatches.Reaches state) : state.Fenced := by
  apply reaches.invariant
  · rintro _ ⟨row, contextLeafId, clockMs, rfl⟩
    exact released_fenced row contextLeafId clockMs
  · intro state timed after _ fenced stepped
    exact fenced.step stepped

/-- The runs that go on from a state. -/
def later (state : DispatchState) : Machine DispatchState (Nat × DispatchOperation) :=
  Machine.ofSteps (· = state) step

/-- The marker holds another lease. -/
def Superseded (state : DispatchState) (lease : PostCompactionDispatchLease) : Prop :=
  ∃ newer, state.action.postCompactionDispatchLease state.action.id state.action.attemptId =
    .ok (some newer) ∧ newer ≠ lease

/-- The marker holds the lease, and its time is over. -/
def Expired (state : DispatchState) (lease : PostCompactionDispatchLease) : Prop :=
  state.action.postCompactionDispatchLease state.action.id state.action.attemptId =
      .ok (some lease) ∧
    ∃ expiresAtMs, state.action.postCompactionDispatchLeaseExpiresAtMs = .ok (some expiresAtMs) ∧
      expiresAtMs ≤ state.clockMs

/-- No statement that presents the lease reaches the row. -/
structure Refuses (row : MarkedAction) (lease : PostCompactionDispatchLease) (nowMs : Nat) :
    Prop where
  renew : ∀ actionRowId attemptId leaseDurationMs renewed,
    row.renewPostCompactionDispatchLease actionRowId attemptId lease leaseDurationMs nowMs ≠
      .ok (some renewed)
  complete : ∀ update : LeasedActionUpdate, update.lease = some lease →
    row.completeActionTx update nowMs = none
  block : ∀ (request : BlockRequest) (otherMs : Nat), request.lease = some lease →
    (∃ message, row.blockModelActionForCompaction request nowMs otherMs = .error message) ∧
      ∃ message, row.blockModelActionForCompaction request otherMs nowMs = .error message
  markStale : ∀ actionRowId attemptId,
    row.markActionStale actionRowId attemptId (some lease) nowMs = none
  fail : ∀ actionRowId attemptId,
    row.failUnfinishedModelAction actionRowId attemptId (some lease) nowMs = none

theorem refuses_of_not_held {row : MarkedAction} {lease : PostCompactionDispatchLease} {nowMs : Nat}
    (lost : row.holdsLease lease nowMs = false) : Refuses row lease nowMs where
  renew actionRowId attemptId leaseDurationMs renewed renews := by
    have held := (renew_some renews).1
    rw [lost] at held
    cases held
  complete update presents := by
    simp [completeActionTx, canComplete, passesFence, presents, lost]
  block request otherMs presents := by
    have missed : row.canBlock request nowMs = false := by
      simp [canBlock, passesFence, presents, lost]
    constructor
    · rw [blockModelActionForCompaction, missed]
      exact ⟨_, rfl⟩
    · rw [blockModelActionForCompaction]
      split
      · exact ⟨_, rfl⟩
      · split
        · exact ⟨_, rfl⟩
        · rw [if_neg (by simp [missed])]
          exact ⟨_, rfl⟩
  markStale actionRowId attemptId := by
    simp [markActionStale, passesFence, lost]
  fail actionRowId attemptId := by
    simp [failUnfinishedModelAction, passesFence, lost]

/-- A lease that was handed out and will never be held again. -/
structure Lost (lease : PostCompactionDispatchLease) (state : DispatchState) : Prop where
  fenced : state.Fenced
  granted : lease ∈ state.granted
  powerless : ∀ nowMs, state.clockMs ≤ nowMs → state.action.holdsLease lease nowMs = false

namespace Lost

variable {lease : PostCompactionDispatchLease} {state after : DispatchState}

theorem of_superseded (fenced : state.Fenced) (granted : lease ∈ state.granted)
    (superseded : state.Superseded lease) : Lost lease state := by
  refine ⟨fenced, granted, fun nowMs _ => ?_⟩
  obtain ⟨_, read, other⟩ := superseded
  rcases fenced.stage with unmarked | ⟨_, unclaimed, _⟩ | ⟨current, until_, claimed, _⟩
  · exact holdsLease_of_unmarked unmarked lease nowMs
  · exact unclaimed.holdsLease lease nowMs
  · rw [claimed.readLease] at read
    cases read
    cases hHolds : state.action.holdsLease lease nowMs with
    | false => rfl
    | true => exact absurd ((claimed.holdsLease_iff lease nowMs).mp hHolds).1.symm other

theorem of_expired (fenced : state.Fenced) (granted : lease ∈ state.granted)
    (expired : state.Expired lease) : Lost lease state := by
  refine ⟨fenced, granted, fun nowMs late => ?_⟩
  obtain ⟨_, _, read, _⟩ := expired
  rcases fenced.stage with unmarked | ⟨_, unclaimed, _⟩ | ⟨current, until_, claimed, _⟩
  · exact holdsLease_of_unmarked unmarked lease nowMs
  · exact unclaimed.holdsLease lease nowMs
  · rw [claimed.readExpiration] at read
    cases read
    cases hHolds : state.action.holdsLease lease nowMs with
    | false => rfl
    | true =>
      have unexpired := ((claimed.holdsLease_iff lease nowMs).mp hHolds).2
      omega

section

variable (lost : Lost lease state)
include lost

theorem setClock {nowMs : Nat} (late : state.clockMs ≤ nowMs) :
    Lost lease { state with clockMs := nowMs } :=
  ⟨lost.fenced.setClock nowMs, lost.granted,
    fun laterMs later => lost.powerless laterMs (Nat.le_trans late later)⟩

theorem performs (performs : Performs state after) (clock : state.clockMs ≤ after.clockMs) :
    Lost lease after := by
  have fenced := lost.fenced.performs performs
  have granted : lease ∈ after.granted := by
    cases performs with
    | keeps _ granted | completes _ _ granted =>
      rw [granted]
      exact lost.granted
    | claims _ granted =>
      rcases granted with same | added
      · rw [same]
        exact lost.granted
      · rw [added]
        exact .tail _ lost.granted
  refine ⟨fenced, granted, fun nowMs late => ?_⟩
  have before := lost.powerless nowMs (Nat.le_trans clock late)
  cases performs with
  | keeps effect =>
    generalize after.action = action at effect
    cases effect with
    | same => exact before
    | settled => exact holdsLease_of_unmarked rfl lease nowMs
    | started unmarked => exact holdsLease_of_unmarked unmarked lease nowMs
    | @renewed renewed expiresAtMs held lasting =>
      rcases lost.fenced.stage with unmarked | ⟨_, unclaimed, _⟩ | ⟨current, until_, claimed, _⟩
      · rw [holdsLease_of_unmarked unmarked] at held
        cases held
      · rw [unclaimed.holdsLease] at held
        cases held
      · have other : lease ≠ current := by
          rintro rfl
          obtain ⟨rfl, _⟩ := (claimed.holdsLease_iff renewed state.clockMs).mp held
          rw [lost.powerless state.clockMs (Nat.le_refl _)] at held
          cases held
        have moved := claimed.moveExpiration lasting
        cases hHolds : (state.action.moveExpiration expiresAtMs).holdsLease lease nowMs with
        | false => rfl
        | true => exact absurd ((moved.holdsLease_iff lease nowMs).mp hHolds).1 other
  | completes _ settled =>
    rw [settled]
    exact holdsLease_of_unmarked rfl lease nowMs
  | claims claimed =>
    obtain ⟨_, newer, ⟨expiresAtMs, installed⟩, _⟩ := lost.fenced.claims claimed
    cases hHolds : after.action.holdsLease lease nowMs with
    | false => rfl
    | true =>
      obtain ⟨rfl, _⟩ := (installed.holdsLease_iff lease nowMs).mp hHolds
      exact absurd (newer lease lost.granted) (Nat.lt_irrefl _)

theorem step {timed : Nat × DispatchOperation} (stepped : state.step timed = some after) :
    Lost lease after := by
  rw [DispatchState.step] at stepped
  split at stepped
  · rename_i late
    obtain ⟨performs, clock⟩ := perform_performs stepped
    exact (lost.setClock late).performs performs clock
  · cases stepped

end

end Lost

/-- Claims hand out growing generations; one lease at most passes the fence of a
completion, and while the action is marked nothing passes without one; a worker
whose lease was taken over or has run out is refused from then on; the action is
completed at most once; and a marked action is pending without a lease or running
under one. -/
theorem post_compaction_dispatch_fenced {state : DispatchState}
    (reaches : dispatches.Reaches state) :
    state.granted.Pairwise (fun later earlier => earlier.generation < later.generation) ∧
      (∀ (nowMs : Nat) (first second : LeasedActionUpdate) (one other : PostCompactionDispatchLease),
        first.lease = some one → second.lease = some other →
        state.action.canComplete first nowMs = true → state.action.canComplete second nowMs = true →
        one = other) ∧
      (∀ lease ∈ state.granted, state.Superseded lease ∨ state.Expired lease →
        ∀ after, (later state).Reaches after →
          ∀ nowMs, after.clockMs ≤ nowMs → Refuses after.action lease nowMs) ∧
      state.completions ≤ 1 ∧
      (state.action.postCompactionDispatch.isSome = true →
        (∀ (nowMs : Nat) (update : LeasedActionUpdate), update.lease = none →
          state.action.canComplete update nowMs = false) ∧
        (state.action.status = .pending ∧
            state.action.postCompactionDispatchLease state.action.id state.action.attemptId =
              .ok none ∨
          state.action.status = .running ∧
            ∃ lease expiresAtMs,
              state.action.postCompactionDispatchLease state.action.id state.action.attemptId =
                .ok (some lease) ∧
              state.action.postCompactionDispatchLeaseExpiresAtMs = .ok (some expiresAtMs))) := by
  have fenced := fenced_of_reaches reaches
  refine ⟨fenced.ordered, ?_, ?_, ?_, ?_⟩
  · intro nowMs first second one other presents presentsToo passes passesToo
    have holds := (canComplete_fence passes).2
    have holdsToo := (canComplete_fence passesToo).2
    rw [presents] at holds
    rw [presentsToo] at holdsToo
    exact fenced.holdsLease_unique holds holdsToo
  · intro lease granted lostNow after reached nowMs late
    have lost : Lost lease state := by
      rcases lostNow with superseded | expired
      · exact .of_superseded fenced granted superseded
      · exact .of_expired fenced granted expired
    have lostThen : Lost lease after := by
      apply reached.invariant
      · rintro _ rfl
        exact lost
      · intro current timed next _ lost stepped
        exact lost.step stepped
    exact refuses_of_not_held (lostThen.powerless nowMs late)
  · rcases fenced.once with zero | ⟨one, _⟩
    · rw [zero]
      exact Nat.zero_le 1
    · exact Nat.le_of_eq one
  · intro marked
    constructor
    · intro nowMs update presentsNone
      have blocked : state.action.passesFence none nowMs = false := by
        rw [passesFence, ← Bool.not_eq_true, isNone_iff_eq_none]
        intro unmarked
        rw [unmarked] at marked
        cases marked
      rw [canComplete, presentsNone, blocked, Bool.and_false]
    · rcases fenced.stage with unmarked | ⟨_, unclaimed, _⟩ | ⟨lease, expiresAtMs, claimed, _⟩
      · rw [unmarked] at marked
        cases marked
      · exact .inl ⟨unclaimed.pending, unclaimed.readLease⟩
      · exact .inr ⟨claimed.running, lease, expiresAtMs, claimed.readLease, claimed.readExpiration⟩

/-- A lease runs out, is taken over, and the second worker completes the action. -/
theorem post_compaction_dispatch_fenced_takeover :
    ∃ state : DispatchState, state.granted.map (·.generation) = [2, 1] ∧ state.completions = 1 ∧
      state.granted.Pairwise (fun later earlier => earlier.generation < later.generation) ∧
      state.completions ≤ 1 := by
  let row : MarkedAction :=
    { id := "action"
      attemptId := "attempt"
      action := { status := .blocked, actionId := 1, turnId := 1, payload := .model (some "old") }
      postCompactionDispatch := none }
  let context (ownerId : String) (named : ownerId ≠ "") : ClaimContext :=
    { binding := some { parentSessionId := none, delegationId := none }
      delegationStatus := none
      lockedBinding := { parentSessionId := none, delegationId := none }
      activeLeafId := some "leaf"
      modelContextRead := .ok ()
      routeRead := .ok ()
      ownerId
      ownerNamed := named }
  let intent : PostCompactionDispatchIntent := { rowId := "action", attemptId := "attempt" }
  let second : PostCompactionDispatchLease :=
    { ownerId := "b", generation := 2, contextLeafId := "leaf" }
  let operations : List (Nat × DispatchOperation) :=
    [(10, .claim intent 5 (context "a" (by decide))),
      (20, .claim intent 5 (context "b" (by decide))),
      (21, .beginCompletion
        { rowId := "action", attemptId := "attempt", lease := some second, status := .completed } []),
      (22, .renew "action" "attempt" second 5),
      (26, .commitCompletion false)]
  have ran : (operations.foldlM step (released row "leaf" 0)).map
      (fun state => (state.granted.map (·.generation), state.completions)) = some ([2, 1], 1) := by
    decide +kernel
  obtain ⟨state, enabled, seen⟩ := map_eq_some_iff.mp ran
  have reaches : dispatches.Reaches state := .run (.start ⟨row, "leaf", 0, rfl⟩) enabled
  obtain ⟨ordered, _, _, once, _⟩ := post_compaction_dispatch_fenced reaches
  exact ⟨state, congrArg Prod.fst seen, congrArg Prod.snd seen, ordered, once⟩

end DispatchState

end PiRelay.Store
