import PiRelay.AgentRuntime.WorkspaceBases

/-! While a call has a `WorkspaceBase`, nothing else changes its slot, as long as removals by
project and the locks of slots keep out of each other's way. -/
namespace PiRelay.AgentRuntime

open Library KeyedLocks Option
open List hiding drop

namespace BranchPhase

def isOver : BranchPhase → Bool
  | .done _ => true
  | .dropped => true
  | _ => false

def inSlot : BranchPhase → Bool
  | .queued => false
  | phase => !phase.isOver

theorem not_inSlot_of_over {phase : BranchPhase} (ended : phase.isOver) : phase.inSlot = false := by
  cases phase <;> first | rfl | cases ended

/-- The call has the `WorkspaceBase` of the slot. -/
def hasBase : BranchPhase → Bool
  | .alive => true
  | .copying _ => true
  | .copied _ => true
  | _ => false

def Awaits : BranchPhase → Nat → BlockingWork → Prop
  | .removing op, id, .removal => op = id
  | .sanitizing op, id, .sanitizing => op = id
  | .writing op, id, .writing _ => op = id
  | _, _, _ => False

/-- What is in the slot, and what the branch has read from it. -/
def Content : BranchPhase → WorkspaceBaseConfig → BaseTree → Prop
  | .refreshing, config, tree => tree = .renewing config
  | .sanitizing _, config, tree => tree = .renewing config
  | .writing _, config, tree => tree = .refreshed config
  | .alive, config, tree => tree = .refreshed config
  | .copying source, config, tree => tree = .refreshed config ∧ source = .refreshed config
  | .copied copy, config, _ => copy = .refreshed config
  | .done copy, config, _ => copy = .refreshed config
  | _, _, _ => True

theorem Content.of_outside {phase : BranchPhase} {config : WorkspaceBaseConfig} {tree : BaseTree}
    (content : phase.Content config tree) (outside : phase.inSlot = false) (other : BaseTree) :
    phase.Content config other := by
  cases phase <;> first | exact content | cases outside

end BranchPhase

namespace BasesState

variable (state : BasesState)

def held (op : BlockingOp) : Bool :=
  state.slotLocks.requests.any fun request => request.guards.any fun ref => op.covers ref.1

/-- Work under way covers the slot. -/
def swept (slot : SlotKey) : Bool :=
  state.blocking.any fun op => !op.finished && op.covers slot

/-- A call starts a removal while no slot that it covers is locked, and the lock of a slot is
taken while no work is under way there. -/
def Admits : BasesAction → Prop
  | .removeStale id dir => ∀ call ∈ state.calls[id]?,
      state.held (.onSlot ⟨call.project, dir⟩ .removal) = false
  | .checkChanged id => ∀ call ∈ state.calls[id]?, ∀ config ∈ call.phase.nextChanged,
      state.isChanged ⟨call.project, config.workspaceDir⟩ config = true →
        state.held (.onSlot ⟨call.project, config.workspaceDir⟩ .removal) = false
  | .clear id isThere => isThere = true → ∀ call ∈ state.calls[id]?,
      state.held ⟨call.project, none, .removal, false⟩ = false
  | .acquireSlot id => ∀ branch ∈ state.branches[id]?, state.swept branch.slot = false
  | _ => True

instance (state : BasesState) (action : BasesAction) : Decidable (state.Admits action) := by
  cases action <;> unfold Admits <;> infer_instance

/-- While a call has a `WorkspaceBase`, no work covers its slot and no other branch is in it. -/
def Undisturbed : Prop :=
  ∀ (id : Nat) branch, state.branches[id]? = some branch → branch.phase.hasBase = true →
    (∀ op ∈ state.blocking, op.finished = false → op.covers branch.slot = false) ∧
    ∀ (other : Nat) otherBranch, state.branches[other]? = some otherBranch →
      otherBranch.phase.inSlot = true → otherBranch.slot = branch.slot → other = id

/-- Every workspace that a session gets is a copy of a base that was completely refreshed for
its configuration. -/
def WholeCopies : Prop :=
  ∀ branch ∈ state.branches, ∀ copy, branch.phase = .done copy →
    copy = .refreshed branch.config

theorem held_eq_false {state : BasesState} {op : BlockingOp} (free : state.held op = false)
    {id : Nat} {slot : SlotKey} {lock : Nat} (holds : state.slotLocks.Holds id slot lock) :
    op.covers slot = false := by
  obtain ⟨request, isRequest, isGuard⟩ := holds
  simp only [held, List.any_eq_false, List.any_eq_true, not_exists, not_and,
    Bool.not_eq_true] at free
  exact free request (mem_of_getElem? isRequest) (slot, lock) isGuard

theorem not_swept_iff {state : BasesState} {slot : SlotKey} :
    state.swept slot = false ↔
      ∀ (op : Nat) work, state.blocking[op]? = some work → work.finished = false →
        work.covers slot = false := by
  simp only [swept, List.any_eq_false, Bool.and_eq_true, Bool.not_eq_true', not_and,
    Bool.not_eq_true, mem_iff_getElem?]
  constructor
  · exact fun free op work isWork unfinished => free work ⟨op, isWork⟩ unfinished
  · rintro free work ⟨op, isWork⟩ unfinished
    exact free op work isWork unfinished

end BasesState

open BasesState

/-- Branches and their requests go together; who holds a slot sees no work there but that it
waits for; and what a branch has made of its slot is still there. -/
structure Kept (state : BasesState) : Prop where
  sound : state.slotLocks.Sound
  length : state.slotLocks.requests.length = state.branches.length
  serves : ∀ (id : Nat) branch request, state.branches[id]? = some branch →
    state.slotLocks.requests[id]? = some request →
      request.keys = if branch.phase.isOver then [] else [branch.slot]
  locked : ∀ (id : Nat) branch, state.branches[id]? = some branch → branch.phase.inSlot = true →
    ∃ lock, state.slotLocks.Holds id branch.slot lock
  quiet : ∀ (id : Nat) branch lock, state.branches[id]? = some branch →
    state.slotLocks.Holds id branch.slot lock → ∀ (op : Nat) work,
      state.blocking[op]? = some work → work.finished = false → work.covers branch.slot = true →
        branch.phase.Awaits op work.work
  content : ∀ (id : Nat) branch, state.branches[id]? = some branch →
    branch.phase.Content branch.config (state.slots branch.slot).base

variable {state after : BasesState} {id : Nat}

theorem Kept.aside (kept : Kept state) (slots : after.slots = state.slots)
    (blocking : after.blocking = state.blocking) (slotLocks : after.slotLocks = state.slotLocks)
    (branches : after.branches = state.branches) : Kept after := by
  obtain ⟨sound, length, serves, locked, quiet, content⟩ := kept
  rw [← slotLocks] at sound length serves locked quiet
  rw [← branches] at length serves locked quiet content
  rw [← blocking] at quiet
  rw [← slots] at content
  exact ⟨sound, length, serves, locked, quiet, content⟩

theorem Kept.startOp (kept : Kept state) {op : BlockingOp} (free : state.held op = false) :
    Kept (state.startOp op) :=
  { kept with
    quiet := by
      intro branchId branch lock isBranch holds index work isWork unfinished covers
      rw [BasesState.startOp, getElem?_append] at isWork
      split at isWork
      · exact kept.quiet branchId branch lock isBranch holds index work isWork unfinished covers
      · obtain rfl := mem_singleton.mp (mem_of_getElem? isWork)
        rw [BasesState.held_eq_false free holds] at covers
        cases covers }

variable {slotLocks : KeyedLocks SlotKey} {branch : Branch} {lock op : Nat} {work : BlockingOp}

section

variable (kept : Kept state)
include kept

theorem Kept.relock (sound : slotLocks.Sound)
    (length : slotLocks.requests.length = state.slotLocks.requests.length)
    (keys : ∀ (other : Nat) request, slotLocks.requests[other]? = some request →
      ∃ earlier, state.slotLocks.requests[other]? = some earlier ∧ request.keys = earlier.keys)
    (keeps : ∀ other slot lock, state.slotLocks.Holds other slot lock →
      slotLocks.Holds other slot lock)
    (takes : ∀ other branch lock, state.branches[other]? = some branch →
      slotLocks.Holds other branch.slot lock →
        (∃ lock, state.slotLocks.Holds other branch.slot lock) ∨
          state.swept branch.slot = false) :
    Kept { state with slotLocks } where
  sound := sound
  length := length.trans kept.length
  serves := by
    intro branchId branch request isBranch isRequest
    obtain ⟨earlier, wasRequest, same⟩ := keys branchId request isRequest
    rw [same]
    exact kept.serves branchId branch earlier isBranch wasRequest
  locked := by
    intro branchId branch isBranch inSlot
    obtain ⟨lock, holds⟩ := kept.locked branchId branch isBranch inSlot
    exact ⟨lock, keeps _ _ _ holds⟩
  quiet := by
    intro branchId branch lock isBranch holds op work isWork unfinished covers
    rcases takes branchId branch lock isBranch holds with ⟨_, held⟩ | free
    · exact kept.quiet branchId branch _ isBranch held op work isWork unfinished covers
    · rw [not_swept_iff.mp free op work isWork unfinished] at covers
      cases covers
  content := kept.content

theorem Kept.take (isAfter : state.slotLocks.take id = some slotLocks) :
    Kept { state with slotLocks } := by
  have holds := fun other slot lock =>
    holds_take other slot lock isAfter
  have sound := kept.sound.take isAfter
  obtain ⟨_, key, _, found, rfl⟩ := take_eq_some isAfter
  apply kept.relock sound
  · simp [put, withLock]
  · intro other request isRequest
    have inLocks : (state.slotLocks.withLock key).requests[id]? = some _ := found
    exact keys_put inLocks (take_keys ..) isRequest
  · exact fun other slot lock held => (holds other slot lock).mpr held
  · exact fun other branch lock _ held => .inl ⟨lock, (holds other branch.slot lock).mp held⟩

theorem Kept.acquire (isAfter : state.slotLocks.acquire id = some slotLocks)
    (free : ∀ branch ∈ state.branches[id]?, state.swept branch.slot = false) :
    Kept { state with slotLocks } := by
  have holds := fun other slot lock =>
    holds_acquire other slot lock isAfter
  have sound := kept.sound.acquire isAfter
  obtain ⟨_, _, lock, _, found, -, rfl⟩ := acquire_eq_some isAfter
  apply kept.relock sound
  · simp [put]
  · exact fun other request => keys_put found (acquire_keys ..)
  · exact fun other slot lock held => (holds other slot lock).mpr (.inl held)
  · intro other branch lock isBranch held
    rcases (holds other branch.slot lock).mp held with was | ⟨rfl, -⟩
    · exact .inl ⟨lock, was⟩
    · exact .inr (free branch isBranch)

theorem Kept.of_holds {slot : SlotKey} (found : state.branches[id]? = some branch)
    (holds : state.slotLocks.Holds id slot lock) :
    slot = branch.slot ∧ branch.phase.isOver = false := by
  obtain ⟨request, isRequest, isGuard⟩ := holds
  have isKey : slot ∈ request.keys := by
    apply mem_append_left
    exact mem_map_of_mem (mem_append_left _ isGuard)
  rw [kept.serves id branch request found isRequest] at isKey
  split at isKey
  · cases isKey
  · rename_i ongoing
    exact ⟨mem_singleton.mp isKey, Bool.not_eq_true _ ▸ ongoing⟩

theorem Kept.move {phase : BranchPhase} (ops : List BlockingOp)
    (found : state.branches[id]? = some branch) (holds : state.slotLocks.Holds id branch.slot lock)
    (ongoing : phase.isOver = false)
    (slots : ∀ slot, slot ≠ branch.slot → after.slots slot = state.slots slot)
    (blocking : after.blocking = state.blocking ++ ops)
    (slotLocks : after.slotLocks = state.slotLocks)
    (branches : after.branches = state.branches.set id { branch with phase })
    (own : ∀ op ∈ ops, ∀ slot, op.covers slot → slot = branch.slot)
    (quiet : ∀ (op : Nat) work, (state.blocking ++ ops)[op]? = some work →
      work.finished = false → work.covers branch.slot → phase.Awaits op work.work)
    (content : phase.Content branch.config (after.slots branch.slot).base) : Kept after := by
  have cases : ∀ {other : Nat} {otherBranch}, after.branches[other]? = some otherBranch →
      other = id ∧ otherBranch = { branch with phase } ∨
        other ≠ id ∧ state.branches[other]? = some otherBranch := by
    intro other otherBranch isBranch
    rw [branches] at isBranch
    exact getElem?_set_cases isBranch
  refine ⟨slotLocks ▸ kept.sound, ?_, ?_, ?_, ?_, ?_⟩
  · rw [slotLocks, branches, length_set]
    exact kept.length
  · intro other otherBranch request isBranch isRequest
    rw [slotLocks] at isRequest
    rcases cases isBranch with ⟨rfl, rfl⟩ | ⟨-, was⟩
    · rw [kept.serves other branch request found isRequest, (kept.of_holds found holds).2, ongoing]
    · exact kept.serves other otherBranch request was isRequest
  · intro other otherBranch isBranch inSlot
    rw [slotLocks]
    rcases cases isBranch with ⟨rfl, rfl⟩ | ⟨-, was⟩
    · exact ⟨lock, holds⟩
    · exact kept.locked other otherBranch was inSlot
  · intro other otherBranch otherLock isBranch otherHolds op work isWork unfinished covers
    rw [slotLocks] at otherHolds
    rw [blocking] at isWork
    rcases cases isBranch with ⟨rfl, rfl⟩ | ⟨different, was⟩
    · exact quiet op work isWork unfinished covers
    · rw [getElem?_append] at isWork
      split at isWork
      · exact kept.quiet other otherBranch otherLock was otherHolds op work isWork unfinished covers
      · rw [own work (mem_of_getElem? isWork) _ covers] at otherHolds
        exact absurd (kept.sound.key_exclusive otherHolds holds) different
  · intro other otherBranch isBranch
    rcases cases isBranch with ⟨rfl, rfl⟩ | ⟨different, was⟩
    · exact content
    · have wasContent := kept.content other otherBranch was
      rcases eq_or_ne otherBranch.slot branch.slot with same | otherSlot
      · cases inSlot : otherBranch.phase.inSlot with
        | false => exact wasContent.of_outside inSlot _
        | true =>
          obtain ⟨otherLock, otherHolds⟩ := kept.locked other otherBranch was inSlot
          rw [same] at otherHolds
          exact absurd (kept.sound.key_exclusive otherHolds holds) different
      · rw [slots otherBranch.slot otherSlot]
        exact wasContent

end

/-- What a branch waits for is done. -/
def BasesState.Idle (state : BasesState) (phase : BranchPhase) : Prop :=
  ∀ op work, phase.Awaits op work → state.opFinished op = true

section

variable (kept : Kept state)
include kept

theorem Kept.none_under_way (found : state.branches[id]? = some branch)
    (holds : state.slotLocks.Holds id branch.slot lock) (idle : state.Idle branch.phase)
    (isWork : state.blocking[op]? = some work) (unfinished : work.finished = false) :
    work.covers branch.slot = false := by
  cases covers : work.covers branch.slot with
  | false => rfl
  | true =>
    have awaits := kept.quiet id branch lock found holds op work isWork unfinished covers
    have finished := idle op work.work awaits
    rw [opFinished, isWork, any_some, unfinished] at finished
    cases finished

section

variable (phase : BranchPhase) (found : state.branches[id]? = some branch)
  (holds : state.slotLocks.Holds id branch.slot lock) (idle : state.Idle branch.phase)
  (ongoing : phase.isOver = false)
  (others : ∀ slot, slot ≠ branch.slot → after.slots slot = state.slots slot)
  (locks : after.slotLocks = state.slotLocks)
  (moved : after.branches = state.branches.set id { branch with phase })
  (content : phase.Content branch.config (after.slots branch.slot).base)
include found holds idle ongoing others locks moved content

theorem Kept.moveOn (blocking : after.blocking = state.blocking) : Kept after := by
  apply kept.move [] found holds ongoing others (by simpa using blocking) locks moved
  · simp
  · intro op work isWork unfinished covers
    rw [append_nil] at isWork
    rw [kept.none_under_way found holds idle isWork unfinished] at covers
    cases covers
  · exact content

theorem Kept.moveTo (work : BlockingWork) (awaits : phase.Awaits state.blocking.length work)
    (blocking : after.blocking = state.blocking ++ [.onSlot branch.slot work]) : Kept after := by
  apply kept.move _ found holds ongoing others blocking locks moved
  · intro op isOp slot covers
    obtain rfl := mem_singleton.mp isOp
    simp only [BlockingOp.covers, BlockingOp.onSlot, all_some, Bool.and_eq_true,
      beq_iff_eq] at covers
    obtain ⟨_, _⟩ := slot
    obtain ⟨rfl, rfl⟩ := covers
    rfl
  · intro op started isWork unfinished covers
    rcases getElem?_concat_cases isWork with was | ⟨rfl, rfl⟩
    · rw [kept.none_under_way found holds idle was unfinished] at covers
      cases covers
    · exact awaits
  · exact content

end

section

variable (found : state.branches[id]? = some branch)
include found

theorem Kept.renewed (holds : state.slotLocks.Holds id branch.slot lock)
    (idle : state.Idle branch.phase)
    (renewing : (state.slots branch.slot).base = .renewing branch.config) :
    Kept (((state.setSlot branch.slot
        { state.slots branch.slot with base := (state.slots branch.slot).base.renewed }).startOp
      (.onSlot branch.slot (.writing branch.config))).setBranch id branch
        (.writing state.blocking.length)) := by
  refine kept.moveTo (.writing state.blocking.length) found holds idle rfl ?_ rfl rfl ?_
    (.writing branch.config) rfl rfl
  · intro other different
    exact Function.update_of_ne different ..
  · have isRenewed : (state.slots branch.slot).base.renewed = .refreshed branch.config := by
      rw [renewing]
      rfl
    simpa [BasesState.setBranch, BasesState.setSlot, BasesState.startOp,
      BranchPhase.Content] using isRenewed

theorem Kept.holds_of_granted (ongoing : branch.phase.isOver = false)
    (granted : (state.slotLocks.requests[id]?.any (·.granted))) :
    ∃ lock, state.slotLocks.Holds id branch.slot lock := by
  obtain ⟨⟨guards, waits, left⟩, isRequest, isGranted⟩ := (Option.any_eq_true _ _).mp granted
  obtain ⟨rfl, rfl⟩ : waits = _ ∧ left = [] := by
    simpa [LockRequest.granted] using isGranted
  have keys := kept.serves id branch _ found isRequest
  rw [ongoing, if_neg Bool.false_ne_true] at keys
  have isKey : branch.slot ∈ guards.map Prod.fst := by
    simp only [LockRequest.keys, LockRequest.refs, toList_none, append_nil] at keys
    rw [keys]
    exact (.head _)
  obtain ⟨⟨_, lock⟩, isGuard, rfl⟩ := mem_map.mp isKey
  exact ⟨lock, _, isRequest, isGuard⟩

theorem Kept.leave {phase : BranchPhase} (ended : phase.isOver)
    (content : phase.Content branch.config (state.slots branch.slot).base) :
    Kept { state.setBranch id branch phase with slotLocks := state.slotLocks.drop id } where
  sound := kept.sound.drop id
  length := by
    simpa [drop, put, setBranch] using kept.length
  serves := by
    intro other otherBranch request isBranch isRequest
    rcases getElem?_set_cases isBranch with ⟨rfl, rfl⟩ | ⟨different, was⟩
    · rcases getElem?_set_cases isRequest with ⟨-, rfl⟩ | ⟨different, -⟩
      · rw [ended]
        rfl
      · exact absurd rfl different
    · rw [drop, put, getElem?_set_ne (Ne.symm different)] at isRequest
      exact kept.serves other otherBranch request was isRequest
  locked := by
    intro other otherBranch isBranch inSlot
    rcases getElem?_set_cases isBranch with ⟨rfl, rfl⟩ | ⟨different, was⟩
    · rw [BranchPhase.not_inSlot_of_over ended] at inSlot
      cases inSlot
    · obtain ⟨lock, holds⟩ := kept.locked other otherBranch was inSlot
      exact ⟨lock, holds_drop.mpr ⟨different, holds⟩⟩
  quiet := by
    intro other otherBranch lock isBranch holds
    obtain ⟨different, held⟩ := holds_drop.mp holds
    rw [setBranch, getElem?_set_ne (Ne.symm different)] at isBranch
    exact kept.quiet other otherBranch lock isBranch held
  content := by
    intro other otherBranch isBranch
    rcases getElem?_set_cases isBranch with ⟨rfl, rfl⟩ | ⟨-, was⟩
    · exact content
    · exact kept.content other otherBranch was

theorem Kept.goOnFrom (isAfter : state.goOnFrom id branch = some after) : Kept after := by
  have content := kept.content id branch found
  have locked := kept.locked id branch found
  obtain ⟨_, slot, _, phase⟩ := branch
  cases phase with
  | queued =>
    simp only [goOnFrom] at isAfter
    split at isAfter
    · rename_i granted
      cases isAfter
      obtain ⟨lock, holds⟩ := kept.holds_of_granted found rfl granted
      exact kept.moveOn .locked found holds (fun _ _ awaits => awaits.elim) rfl (fun _ _ => rfl)
        rfl rfl trivial rfl
    · cases isAfter
  | locked =>
    obtain ⟨lock, holds⟩ := locked rfl
    simp only [goOnFrom] at isAfter
    split at isAfter
    · cases isAfter
      exact kept.moveTo (.removing state.blocking.length) found holds
        (fun _ _ awaits => awaits.elim) rfl (fun _ _ => rfl) rfl rfl trivial .removal rfl rfl
    · cases isAfter
      exact kept.moveOn .creating found holds (fun _ _ awaits => awaits.elim) rfl (fun _ _ => rfl)
        rfl rfl trivial rfl
  | removing op =>
    obtain ⟨lock, holds⟩ := locked rfl
    simp only [goOnFrom] at isAfter
    split at isAfter
    · rename_i finished
      cases isAfter
      have idle : state.Idle (.removing op) := by
        intro other work awaits
        cases work with
        | removal => exact awaits ▸ finished
        | sanitizing | writing => exact awaits.elim
      exact kept.moveOn .creating found holds idle rfl (fun _ _ => rfl) rfl rfl trivial rfl
    · cases isAfter
  | creating =>
    obtain ⟨lock, holds⟩ := locked rfl
    cases isAfter
    refine kept.moveOn .refreshing found holds (fun _ _ awaits => awaits.elim) rfl ?_ rfl rfl ?_ rfl
    · intro other different
      exact Function.update_of_ne different ..
    · simp [setBranch, setSlot, BranchPhase.Content]
  | refreshing =>
    obtain ⟨lock, holds⟩ := locked rfl
    simp only [goOnFrom] at isAfter
    split at isAfter
    · cases isAfter
      exact kept.renewed found holds (fun _ _ awaits => awaits.elim) content
    · cases isAfter
      exact kept.moveTo (.sanitizing state.blocking.length) found holds
        (fun _ _ awaits => awaits.elim) rfl (fun _ _ => rfl) rfl rfl content .sanitizing rfl rfl
  | sanitizing op =>
    obtain ⟨lock, holds⟩ := locked rfl
    simp only [goOnFrom] at isAfter
    split at isAfter
    · rename_i finished
      cases isAfter
      have idle : state.Idle (.sanitizing op) := by
        intro other work awaits
        cases work with
        | removal | writing => exact awaits.elim
        | sanitizing => exact awaits ▸ finished
      exact kept.renewed found holds idle content
    · cases isAfter
  | writing op =>
    obtain ⟨lock, holds⟩ := locked rfl
    simp only [goOnFrom] at isAfter
    split at isAfter
    · rename_i finished
      cases isAfter
      have idle : state.Idle (.writing op) := by
        intro other work awaits
        cases work with
        | removal | sanitizing => exact awaits.elim
        | writing => exact awaits ▸ finished
      exact kept.moveOn .alive found holds idle rfl (fun _ _ => rfl) rfl rfl content rfl
    · cases isAfter
  | alive =>
    obtain ⟨lock, holds⟩ := locked rfl
    cases isAfter
    exact kept.moveOn (.copying (state.slots slot).base) found holds
      (fun _ _ awaits => awaits.elim) rfl (fun _ _ => rfl) rfl rfl ⟨content, content⟩ rfl
  | copying =>
    obtain ⟨lock, holds⟩ := locked rfl
    obtain ⟨isRefreshed, isSource⟩ := content
    cases isAfter
    refine kept.moveOn (.copied _) found holds (fun _ _ awaits => awaits.elim) rfl
      (fun _ _ => rfl) rfl rfl ?_ rfl
    exact (if_pos (isRefreshed.trans isSource.symm)).trans isSource
  | copied =>
    cases isAfter
    exact kept.leave found rfl content
  | done | dropped => cases isAfter

end

theorem Kept.spawnOne (call : Nat) (slot : SlotKey) (config : WorkspaceBaseConfig) :
    Kept { state with
      slotLocks := state.slotLocks.enter [slot]
      branches := state.branches ++ [⟨call, slot, config, .queued⟩] } := by
  refine ⟨kept.sound.enter (pairwise_singleton _ _), ?_, ?_, ?_, ?_, ?_⟩
  · simpa [KeyedLocks.enter] using kept.length
  · intro other branch request isBranch isRequest
    rw [KeyedLocks.enter, getElem?_append, kept.length] at isRequest
    rcases getElem?_concat_cases isBranch with was | ⟨rfl, rfl⟩
    · rw [if_pos (List.getElem?_eq_some_iff.mp was).1] at isRequest
      exact kept.serves other branch request was isRequest
    · rw [if_neg (lt_irrefl _)] at isRequest
      obtain rfl := mem_singleton.mp (mem_of_getElem? isRequest)
      rfl
  · intro other branch isBranch inSlot
    rcases getElem?_concat_cases isBranch with was | ⟨rfl, rfl⟩
    · obtain ⟨lock, holds⟩ := kept.locked other branch was inSlot
      exact ⟨lock, KeyedLocks.holds_enter.mpr holds⟩
    · cases inSlot
  · intro other branch lock isBranch holds
    have held := KeyedLocks.holds_enter.mp holds
    rcases getElem?_concat_cases isBranch with was | ⟨rfl, rfl⟩
    · exact kept.quiet other branch lock was held
    · obtain ⟨request, isRequest, -⟩ := held
      have inBounds := (List.getElem?_eq_some_iff.mp isRequest).1
      rw [kept.length] at inBounds
      exact absurd inBounds (lt_irrefl _)
  · intro other branch isBranch
    rcases getElem?_concat_cases isBranch with was | ⟨rfl, rfl⟩
    · exact kept.content other branch was
    · trivial

theorem Kept.spawn (call : Nat) (project : ProjectId) (configs : List WorkspaceBaseConfig) :
    Kept (BasesState.spawn call project configs state) := by
  induction configs generalizing state with
  | nil => exact kept
  | cons config _ ih => exact ih (kept.spawnOne call ⟨project, config.workspaceDir⟩ config)

theorem Kept.awaits_of_covers (found : state.branches[id]? = some branch)
    (inSlot : branch.phase.inSlot) (isWork : state.blocking[op]? = some work)
    (unfinished : work.finished = false) (covers : work.covers branch.slot) :
    branch.phase.Awaits op work.work := by
  obtain ⟨lock, holds⟩ := kept.locked id branch found inSlot
  exact kept.quiet id branch lock found holds op work isWork unfinished covers

theorem Kept.content_of_work (found : state.branches[id]? = some branch)
    (isWork : state.blocking[op]? = some work) (unfinished : work.finished = false)
    {tree : BaseTree} (same : work.covers branch.slot → work.work ≠ .removal →
      tree = (state.slots branch.slot).base)
    (untouched : work.covers branch.slot = false → tree = (state.slots branch.slot).base) :
    branch.phase.Content branch.config tree := by
  have content := kept.content id branch found
  cases inSlot : branch.phase.inSlot with
  | false => exact content.of_outside inSlot _
  | true =>
    cases covers : work.covers branch.slot with
    | false =>
      rw [untouched covers]
      exact content
    | true =>
      have awaits := kept.awaits_of_covers found inSlot isWork unfinished covers
      obtain ⟨_, _, _, phase⟩ := branch
      obtain ⟨_, _, kind, _⟩ := work
      cases kind with
      | removal =>
        cases phase with
        | removing => trivial
        | _ => exact awaits.elim
      | sanitizing | writing =>
        rw [same covers (by simp)]
        exact content

theorem Kept.damage {slot : SlotKey} {metadataToo : Bool}
    (isAfter : state.damage op slot metadataToo = some after) : Kept after := by
  rw [BasesState.damage] at isAfter
  split at isAfter
  · rename_i project dir isWork
    split at isAfter
    · rename_i covers
      cases isAfter
      refine ⟨kept.sound, kept.length, kept.serves, kept.locked, kept.quiet, ?_⟩
      intro id branch found
      apply kept.content_of_work found isWork rfl
      · exact fun _ noRemoval => absurd rfl noRemoval
      · intro untouched
        have different : branch.slot ≠ slot := by
          rintro rfl
          rw [covers] at untouched
          cases untouched
        exact congrArg BaseSlot.base (Function.update_of_ne different ..)
    · cases isAfter
  · cases isAfter

theorem Kept.finishOp (isAfter : state.finishOp op = some after) : Kept after := by
  rw [BasesState.finishOp] at isAfter
  split at isAfter
  · rename_i project dir work isWork
    cases isAfter
    refine ⟨kept.sound, kept.length, kept.serves, kept.locked, ?_, ?_⟩
    · intro id branch lock found holds other otherWork isOther unfinished covers
      rcases getElem?_set_cases isOther with ⟨rfl, rfl⟩ | ⟨-, was⟩
      · cases unfinished
      · exact kept.quiet id branch lock found holds other otherWork was unfinished covers
    · intro id branch found
      apply kept.content_of_work found isWork rfl
      · intro covers noRemoval
        dsimp only
        rw [if_pos covers]
        cases work with
        | removal => exact absurd rfl noRemoval
        | sanitizing | writing => rfl
      · intro untouched
        dsimp only
        rw [untouched, if_neg Bool.false_ne_true]
  · cases isAfter

theorem Kept.endStale (isAfter : state.endStale id = some after) : Kept after := by
  rw [BasesState.endStale] at isAfter
  split at isAfter
  · rename_i project workspaces selected found
    obtain ⟨configs, -, rfl⟩ := map_eq_some_iff.mp isAfter
    have ended : Kept (state.endCall id ⟨project, .materialize workspaces selected, .branching⟩) :=
      kept.aside rfl rfl rfl rfl
    exact ended.spawn id project configs
  · obtain ⟨configs, -, rfl⟩ := map_eq_some_iff.mp isAfter
    exact kept.aside rfl rfl rfl rfl
  · cases isAfter

theorem Kept.callOp {op : BlockingOp} (free : state.held op = false) (call : BaseCall) :
    Kept ((state.startOp op).setCall id call) :=
  (kept.startOp free).aside rfl rfl rfl rfl

/-- An admitted step keeps each slot to the branch that holds it. -/
theorem Kept.step {action : BasesAction} (admits : state.Admits action)
    (isStep : state.step action = some after) : Kept after := by
  cases action with
  | begin =>
    cases isStep
    exact kept.aside rfl rfl rfl rfl
  | takeProject | acquireProject =>
    obtain ⟨projectLocks, -, rfl⟩ := map_eq_some_iff.mp isStep
    exact kept.aside rfl rfl rfl rfl
  | enter =>
    rw [BasesState.step, BasesState.enter] at isStep
    split at isStep
    · split at isStep
      · split at isStep <;> exact Option.some.inj isStep ▸ kept.aside rfl rfl rfl rfl
      · cases isStep
    · cases isStep
  | removeStale =>
    rw [BasesState.step, BasesState.removeStale] at isStep
    split at isStep
    · rename_i project request found
      split at isStep
      · cases isStep
        exact kept.callOp (admits _ found) _
      · cases isStep
    · cases isStep
  | endStale => exact kept.endStale isStep
  | checkChanged =>
    rw [BasesState.step, BasesState.checkChanged] at isStep
    split at isStep
    · rename_i project request config left found
      split at isStep
      · rename_i changed
        cases isStep
        exact kept.callOp (admits _ found config rfl changed) _
      · exact Option.some.inj isStep ▸ kept.aside rfl rfl rfl rfl
    · exact Option.some.inj isStep ▸ kept.aside rfl rfl rfl rfl
    · cases isStep
  | clear =>
    rw [BasesState.step, BasesState.clear] at isStep
    split at isStep
    · rename_i project request found
      split at isStep
      · rename_i there
        cases isStep
        exact kept.callOp (admits there _ found) _
      · exact Option.some.inj isStep ▸ kept.aside rfl rfl rfl rfl
    · cases isStep
  | removed =>
    rw [BasesState.step, BasesState.removed] at isStep
    split at isStep
    all_goals
      first
        | cases isStep
        | split at isStep
          · exact Option.some.inj isStep ▸ kept.aside rfl rfl rfl rfl
          · cases isStep
  | returns =>
    rw [BasesState.step, BasesState.returns] at isStep
    split at isStep
    · split at isStep
      · exact Option.some.inj isStep ▸ kept.aside rfl rfl rfl rfl
      · cases isStep
    · cases isStep
  | abort =>
    rw [BasesState.step, BasesState.abort] at isStep
    split at isStep
    · split at isStep
      · cases isStep
      · exact Option.some.inj isStep ▸ kept.aside rfl rfl rfl rfl
    · cases isStep
  | takeSlot =>
    obtain ⟨slotLocks, isAfter, rfl⟩ := map_eq_some_iff.mp isStep
    exact kept.take isAfter
  | acquireSlot =>
    obtain ⟨slotLocks, isAfter, rfl⟩ := map_eq_some_iff.mp isStep
    exact kept.acquire isAfter admits
  | goOn =>
    rw [BasesState.step, BasesState.goOn] at isStep
    split at isStep
    · rename_i found
      split at isStep
      · exact kept.goOnFrom found isStep
      · cases isStep
    · cases isStep
  | dropBranch =>
    rw [BasesState.step, BasesState.dropBranch] at isStep
    split at isStep
    · rename_i found
      split at isStep
      · exact Option.some.inj isStep ▸ kept.leave found rfl trivial
      · cases isStep
    · cases isStep
  | damage => exact kept.damage isStep
  | finishOp => exact kept.finishOp isStep

end

theorem kept_of_reaches (reaches : (basesMachine.guarded BasesState.Admits).Reaches state) :
    Kept state := by
  apply reaches.invariant
  · rintro state ⟨-, -, -, noLocks, noBranches⟩
    refine ⟨noLocks ▸ empty_sound, by simp [noLocks, noBranches, empty], ?_,
      ?_, ?_, ?_⟩ <;> simp [noBranches]
  · exact fun state action after _ kept isStep => kept.step isStep.1 isStep.2

/-- In a run whose steps are all admitted, a base stays as it is while it is copied, and is
completely refreshed for the workspaces that sessions get. -/
theorem bases_stable (reaches : (basesMachine.guarded BasesState.Admits).Reaches state) :
    state.Undisturbed ∧ state.WholeCopies := by
  have kept := kept_of_reaches reaches
  constructor
  · intro id branch found hasBase
    have inSlot : branch.phase.inSlot := by
      obtain ⟨call, slot, config, phase⟩ := branch
      cases phase <;> first | rfl | cases hasBase
    obtain ⟨_, holds⟩ := kept.locked id branch found inSlot
    constructor
    · intro op mem unfinished
      obtain ⟨_, isWork⟩ := mem_iff_getElem?.mp mem
      apply kept.none_under_way found holds _ isWork unfinished
      intro other work awaits
      obtain ⟨call, slot, config, phase⟩ := branch
      cases phase <;> first | exact awaits.elim | cases hasBase
    · intro other otherBranch isOther otherInSlot same
      obtain ⟨_, otherHolds⟩ := kept.locked other otherBranch isOther otherInSlot
      rw [same] at otherHolds
      exact kept.sound.key_exclusive otherHolds holds
  · intro branch mem copy isDone
    obtain ⟨id, found⟩ := mem_iff_getElem?.mp mem
    have content := kept.content id branch found
    rw [isDone] at content
    exact content

def sampleWorkspace : ProjectWorkspace := ⟨.git, "repo", some "url", some "main", none⟩

def sampleSlot : SlotKey := ⟨1, "repo"⟩

def sampleBases : BasesState :=
  ⟨fun _ => false, fun _ => {}, [], KeyedLocks.empty, [], KeyedLocks.empty, []⟩

/-- The session has its base. -/
def refreshRun : List BasesAction :=
  [.begin 1 (.materialize [sampleWorkspace] [sampleWorkspace]), .takeProject 0, .acquireProject 0,
    .enter 0, .endStale 0, .takeSlot 0, .acquireSlot 0, .goOn 0, .goOn 0, .goOn 0, .goOn 0,
    .finishOp 0, .goOn 0]

/-- The project goes while the session copies. -/
def removalRun : List BasesAction :=
  refreshRun ++ [.goOn 0, .begin 1 .remove, .takeProject 1, .acquireProject 1, .enter 1,
    .clear 1 true, .damage 1 sampleSlot false]

def damagedRun : List BasesAction := removalRun ++ [.goOn 0, .goOn 0, .returns 0]

theorem sampleBases_reaches : basesMachine.Reaches sampleBases :=
  .start ⟨rfl, rfl, rfl, rfl, rfl⟩

/-- The removal is under way while the session has its base, and the session is returned a
copy of what it left. -/
theorem base_removed_while_copied :
    (¬ ∀ state, basesMachine.Reaches state → state.Undisturbed) ∧
    ¬ ∀ state, basesMachine.Reaches state → state.WholeCopies := by
  constructor
  · intro stable
    have ends : (removalRun.foldlM step sampleBases).any fun state =>
        state.branches[0]?.any (fun branch => branch.phase.hasBase &&
          state.blocking.any fun op => !op.finished && op.covers branch.slot) := by
      decide +kernel
    obtain ⟨state, isRun, ends⟩ := (Option.any_eq_true _ _).mp ends
    obtain ⟨branch, found, ends⟩ := (Option.any_eq_true _ _).mp ends
    obtain ⟨hasBase, swept⟩ := Bool.and_eq_true_iff.mp ends
    obtain ⟨op, mem, sweeps⟩ := List.any_eq_true.mp swept
    obtain ⟨unfinished, covers⟩ := Bool.and_eq_true_iff.mp sweeps
    have free := (stable state (Machine.Reaches.run sampleBases_reaches isRun) 0 branch found
      hasBase).1 op mem (by simpa using unfinished)
    rw [covers] at free
    cases free
  · intro whole
    have ends : (damagedRun.foldlM step sampleBases).any fun state =>
        state.branches.any fun branch => branch.phase == .done .partly := by
      decide +kernel
    obtain ⟨state, isRun, ends⟩ := (Option.any_eq_true _ _).mp ends
    obtain ⟨branch, mem, isDone⟩ := List.any_eq_true.mp ends
    have copied := whole state (Machine.Reaches.run sampleBases_reaches isRun) branch mem _
      (beq_iff_eq.mp isDone)
    cases copied

/-- The project goes after the session has its copy. -/
def patientRun : List BasesAction :=
  refreshRun ++ [.goOn 0, .begin 1 .remove, .takeProject 1, .acquireProject 1, .enter 1, .goOn 0,
    .goOn 0, .returns 0, .clear 1 true, .damage 1 sampleSlot false]

/-- The copy of the session is whole, and the removal is under way. -/
theorem patientRun_stable : ∃ state,
    (basesMachine.guarded BasesState.Admits).Reaches state ∧
      (state.branches.any fun branch => branch.phase.isDone) = true ∧
      state.swept sampleSlot = true ∧ state.Undisturbed ∧ state.WholeCopies := by
  have ends : (patientRun.foldlM (fun state action => if decide (state.Admits action) then
      state.step action else none) sampleBases).any fun state =>
        state.branches.any (fun branch => branch.phase.isDone) && state.swept sampleSlot := by
    decide +kernel
  obtain ⟨state, isRun, ends⟩ := (Option.any_eq_true _ _).mp ends
  obtain ⟨done, swept⟩ := Bool.and_eq_true_iff.mp ends
  have reaches : (basesMachine.guarded BasesState.Admits).Reaches state :=
    Machine.Reaches.checkedRun (fun _ _ => of_decide_eq_true) (.start ⟨rfl, rfl, rfl, rfl, rfl⟩)
      isRun
  exact ⟨state, reaches, done, swept, bases_stable reaches⟩

end PiRelay.AgentRuntime
