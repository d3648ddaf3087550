import Mathlib.Data.Set.Basic
import PiRelay.Library.LockTasks

/-! Lock coupling down a forest that grows: who waits for a lock while it holds others holds a
tree of locks and waits for a child of one of them. Nothing else is asked of the order in
which locks are taken, and the locks that are only tried do not matter. -/
namespace Library

open List

variable {Lock : Type}

/-- The links of a forest from child to parent, the latest first: a child is linked when
nothing else is known of it. -/
def Grown : List (Lock × Lock) → Prop
  | [] => True
  | (child, parent) :: earlier =>
    child ≠ parent ∧ (∀ link ∈ earlier, child ≠ link.1 ∧ child ≠ link.2) ∧ Grown earlier

instance Grown.decidable [DecidableEq Lock] :
    (links : List (Lock × Lock)) → Decidable (Grown links)
  | [] => .isTrue trivial
  | (child, parent) :: earlier =>
    have : Decidable (Grown earlier) := Grown.decidable earlier
    inferInstanceAs (Decidable
      (child ≠ parent ∧ (∀ link ∈ earlier, child ≠ link.1 ∧ child ≠ link.2) ∧ Grown earlier))

/-- How many links there were once it was linked. -/
def linkedAt [DecidableEq Lock] : List (Lock × Lock) → Lock → Nat
  | [], _ => 0
  | (child, _) :: earlier, lock =>
    if lock = child then earlier.length + 1 else linkedAt earlier lock

theorem linkedAt_le [DecidableEq Lock] (links : List (Lock × Lock)) (lock : Lock) :
    linkedAt links lock ≤ links.length := by
  induction links with
  | nil => exact Nat.le_refl 0
  | cons =>
    rw [linkedAt, length_cons]
    split <;> omega

variable {parent lock root : Lock} {links : Set (Lock × Lock)} {held : List Lock}

theorem Grown.linkedAt_lt [DecidableEq Lock] {links : List (Lock × Lock)} (grown : Grown links)
    {child : Lock} (linked : (child, parent) ∈ links) :
    linkedAt links parent < linkedAt links child := by
  induction links with
  | nil => cases linked
  | cons _ earlier ih =>
    obtain ⟨apart, fresh, before⟩ := grown
    rcases mem_cons.mp linked with rfl | hEarlier
    · have bound := linkedAt_le earlier parent
      simp only [linkedAt, if_neg apart.symm, if_true]
      omega
    · obtain ⟨notChild, notParent⟩ := fresh _ hEarlier
      simp only [linkedAt, if_neg notChild.symm, if_neg notParent.symm]
      exact ih before hEarlier

theorem Grown.parent_unique {links : List (Lock × Lock)} (grown : Grown links) {child other : Lock}
    (linked : (child, parent) ∈ links) (also : (child, other) ∈ links) : parent = other := by
  induction links with
  | nil => cases linked
  | cons _ _ ih =>
    obtain ⟨-, fresh, before⟩ := grown
    rcases mem_cons.mp linked with rfl | hEarlier
    · rcases mem_cons.mp also with same | later
      · exact (congrArg Prod.snd same).symm
      · exact absurd rfl (fresh _ later).1
    · rcases mem_cons.mp also with rfl | later
      · exact absurd rfl (fresh _ hEarlier).1
      · exact ih before hEarlier later

/-- The locks are a tree below the root. -/
def Rooted (links : Set (Lock × Lock)) (held : List Lock) (root : Lock) : Prop :=
  root ∈ held ∧ ∀ lock ∈ held, lock = root ∨ ∃ parent ∈ held, (lock, parent) ∈ links

/-- The lock may be waited for: nothing is held, or a tree with a place for it. -/
def Coupled (links : Set (Lock × Lock)) (held : List Lock) (lock : Lock) : Prop :=
  held = [] ∨
    (∃ root, Rooted links held root) ∧ lock ∉ held ∧ ∃ parent ∈ held, (lock, parent) ∈ links

theorem Rooted.singleton (links : Set (Lock × Lock)) (lock : Lock) : Rooted links [lock] lock :=
  ⟨mem_singleton_self lock, fun _ holds => .inl (mem_singleton.mp holds)⟩

theorem Coupled.child (apart : lock ≠ parent) (linked : (lock, parent) ∈ links) :
    Coupled links [parent] lock := by
  refine .inr ⟨⟨parent, Rooted.singleton links parent⟩, fun holds => ?_, parent,
    mem_singleton_self parent, linked⟩
  exact apart (mem_singleton.mp holds)

theorem Rooted.cons (rooted : Rooted links held root) (holds : parent ∈ held)
    (linked : (lock, parent) ∈ links) : Rooted links (lock :: held) root := by
  refine ⟨.tail _ rooted.1, fun other hOther => ?_⟩
  rcases mem_cons.mp hOther with rfl | earlier
  · exact .inr ⟨parent, .tail _ holds, linked⟩
  · rcases rooted.2 other earlier with same | ⟨above, hAbove, link⟩
    · exact .inl same
    · exact .inr ⟨above, .tail _ hAbove, link⟩

theorem Rooted.mono {later : Set (Lock × Lock)} (grows : links ⊆ later)
    (rooted : Rooted links held root) : Rooted later held root := by
  refine ⟨rooted.1, fun lock holds => ?_⟩
  rcases rooted.2 lock holds with same | ⟨parent, hParent, linked⟩
  · exact .inl same
  · exact .inr ⟨parent, hParent, grows linked⟩

theorem Coupled.mono {later : Set (Lock × Lock)} (grows : links ⊆ later)
    (coupled : Coupled links held lock) : Coupled later held lock := by
  rcases coupled with nothing | ⟨⟨root, rooted⟩, apart, parent, holds, linked⟩
  · exact .inl nothing
  · exact .inr ⟨⟨root, rooted.mono grows⟩, apart, parent, holds, grows linked⟩

theorem Rooted.linkedAt_le [DecidableEq Lock] {links : List (Lock × Lock)} (grown : Grown links)
    (rooted : Rooted {link | link ∈ links} held root) (holds : lock ∈ held) :
    linkedAt links root ≤ linkedAt links lock := by
  -- By induction on the age: what is not the root has its parent among the locks.
  induction hAge : linkedAt links lock using Nat.strongRecOn generalizing lock with
  | ind _ ih =>
    subst hAge
    rcases rooted.2 lock holds with rfl | ⟨parent, hParent, linked⟩
    · exact Nat.le_refl _
    · have older := grown.linkedAt_lt linked
      have rootOlder := ih _ older hParent rfl
      omega

section Waits

variable {Locals Query Proc Store : Type} {Reply : Query → Type} [DecidableEq Lock]
  {state : LockState Lock Locals Query Reply Proc Store} {links : List (Lock × Lock)}

/-- Every task that waits is coupled, and no two tasks hold the same lock. -/
structure CoupledWaits (links : List (Lock × Lock))
    (state : LockState Lock Locals Query Reply Proc Store) : Prop where
  waits : ∀ id lock, state.Waits id lock → ∃ task, state.tasks id = some task ∧
    Coupled {link | link ∈ links} task.held lock
  apart : ∀ id other lock, state.Holds id lock → state.Holds other lock → id = other

/-- The locks of a task are a tree below the root. -/
def LockState.RootedAt (state : LockState Lock Locals Query Reply Proc Store)
    (links : List (Lock × Lock)) (id : Nat) (root : Lock) : Prop :=
  ∃ task, state.tasks id = some task ∧ Rooted {link | link ∈ links} task.held root

variable {id : Nat}

omit [DecidableEq Lock] in
theorem CoupledWaits.rooted (coupled : CoupledWaits links state) {lock own : Lock}
    (waits : state.Waits id lock) (holds : state.Holds id own) :
    ∃ root, state.RootedAt links id root := by
  obtain ⟨task, running, hCoupled⟩ := coupled.waits id lock waits
  obtain ⟨_, running', hOwn⟩ := holds
  cases running.symm.trans running'
  rcases hCoupled with nothing | ⟨⟨root, rooted⟩, -⟩
  · rw [nothing] at hOwn
    cases hOwn
  · exact ⟨root, task, running, rooted⟩

theorem CoupledWaits.linkedAt_lt (grown : Grown links) (coupled : CoupledWaits links state)
    {other : Nat} {root otherRoot : Lock} (edge : state.WaitsFor id other)
    (rooted : state.RootedAt links id root) (otherRooted : state.RootedAt links other otherRoot) :
    linkedAt links root < linkedAt links otherRoot := by
  obtain ⟨lock, waits, owner, hOwner, owned⟩ := edge
  obtain ⟨task, running, hCoupled⟩ := coupled.waits id lock waits
  obtain ⟨_, running', hRooted⟩ := rooted
  cases running.symm.trans running'
  obtain ⟨_, hOwner', hOtherRooted⟩ := otherRooted
  cases hOwner.symm.trans hOwner'
  rcases hCoupled with nothing | ⟨-, notHeld, parent, hParent, linked⟩
  · rw [nothing] at hRooted
    cases hRooted.1
  · have isRoot : lock = otherRoot := by
      rcases hOtherRooted.2 lock owned with same | ⟨above, hAbove, link⟩
      · exact same
      · -- The other task would hold the parent too, and be the one that waits.
        obtain rfl := grown.parent_unique linked link
        obtain rfl := coupled.apart id other parent ⟨task, running, hParent⟩ ⟨owner, hOwner, hAbove⟩
        cases running.symm.trans hOwner
        exact absurd owned notHeld
    subst isRoot
    calc linkedAt links root ≤ linkedAt links parent := hRooted.linkedAt_le grown hParent
      _ < linkedAt links lock := grown.linkedAt_lt linked

/-- Along a chain of waits the roots are ever younger. -/
theorem CoupledWaits.chain_lt (grown : Grown links) (coupled : CoupledWaits links state)
    {last : Nat} {root lastRoot : Lock} (chain : Relation.TransGen state.WaitsFor id last)
    (rooted : state.RootedAt links id root) (lastRooted : state.RootedAt links last lastRoot) :
    linkedAt links root < linkedAt links lastRoot := by
  induction chain generalizing lastRoot with
  | single edge => exact coupled.linkedAt_lt grown edge rooted lastRooted
  | @tail middle next earlier edge ih =>
    -- A task in the middle is waited for and waits.
    have held : ∃ own, state.Holds middle own := by
      cases earlier with
      | single first => exact ⟨first.choose, first.choose_spec.2⟩
      | tail _ before => exact ⟨before.choose, before.choose_spec.2⟩
    obtain ⟨middleRoot, middleRooted⟩ := coupled.rooted edge.choose_spec.1 held.choose_spec
    exact (ih middleRooted).trans (coupled.linkedAt_lt grown edge middleRooted lastRooted)

/-- Coupling along links that grow from a root never deadlocks. -/
theorem CoupledWaits.acyclic (grown : Grown links) (coupled : CoupledWaits links state) (id : Nat) :
    ¬Relation.TransGen state.WaitsFor id id := by
  intro cycle
  have waits : ∃ lock, state.Waits id lock := by
    obtain ⟨_, edge, -⟩ := Relation.TransGen.head'_iff.mp cycle
    exact ⟨edge.choose, edge.choose_spec.1⟩
  have holds : ∃ own, state.Holds id own := by
    obtain ⟨_, -, edge⟩ := Relation.TransGen.tail'_iff.mp cycle
    exact ⟨edge.choose, edge.choose_spec.2⟩
  obtain ⟨_, rooted⟩ := coupled.rooted waits.choose_spec holds.choose_spec
  exact absurd (coupled.chain_lt grown cycle rooted rooted) (Nat.lt_irrefl _)

end Waits

end Library
