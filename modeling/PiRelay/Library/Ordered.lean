import Mathlib.Data.List.Sort
import PiRelay.Library.Selection

/-! Lists in the order of a key, where a test tells which of two values comes first, as
a query with an order returns them. -/
namespace Library

open List

universe u v

variable {Value : Type u} {Key : Type v} [LinearOrder Key]

variable (before : Value → Value → Bool)

/-- The values in the order of a test; those it does not tell apart stay as listed. -/
def inOrder (values : List Value) : List Value :=
  values.insertionSort fun one other => !before other one

theorem inOrder_perm (values : List Value) : (inOrder before values).Perm values :=
  perm_insertionSort _ _

variable {values : List Value}

theorem mem_inOrder {before : Value → Value → Bool} {value : Value} :
    value ∈ inOrder before values ↔ value ∈ values :=
  (inOrder_perm before values).mem_iff

theorem inOrder_map {before : Value → Value → Bool} (change : Value → Value)
    (keeps : ∀ one ∈ values, ∀ other ∈ values,
      before (change one) (change other) = before one other) :
    inOrder before (values.map change) = (inOrder before values).map change := by
  symm
  apply map_insertionSort
  intro one hOne other hOther
  rw [keeps other hOther one hOne]

theorem less_of_ascends {key otherKey : Value → Key}
    (ascends : values.Pairwise fun one other => key one < key other)
    (otherAscends : values.Pairwise fun one other => otherKey one < otherKey other)
    {one other : Value} (hOne : one ∈ values) (hOther : other ∈ values) (less : key one < key other) :
    otherKey one < otherKey other := by
  induction values with
  | nil => cases hOne
  | cons _ _ ih =>
    have split := pairwise_cons.mp ascends
    have otherSplit := pairwise_cons.mp otherAscends
    rcases mem_cons.mp hOne with rfl | oneInRest
    · rcases mem_cons.mp hOther with rfl | otherInRest
      · exact absurd less (lt_irrefl _)
      · exact otherSplit.1 other otherInRest
    · rcases mem_cons.mp hOther with rfl | otherInRest
      · exact absurd less (split.1 one oneInRest).not_gt
      · exact ih split.2 otherSplit.2 oneInRest otherInRest

/-- Two lists of the same values, each in the strict order of a key, are one list exactly
where the keys order the values alike. -/
theorem eq_iff_ordered_alike {key otherKey : Value → Key} {one other : List Value}
    (same : ∀ value, value ∈ one ↔ value ∈ other)
    (ascends : one.Pairwise fun first second => key first < key second)
    (otherAscends : other.Pairwise fun first second => otherKey first < otherKey second) :
    one = other ↔ ∀ first ∈ one, ∀ second ∈ one,
      (key first < key second ↔ otherKey first < otherKey second) := by
  constructor
  · rintro rfl first hFirst second hSecond
    exact ⟨less_of_ascends ascends otherAscends hFirst hSecond,
      less_of_ascends otherAscends ascends hFirst hSecond⟩
  · intro alike
    have ascendsToo : other.Pairwise fun first second => key first < key second := by
      apply otherAscends.imp_of_mem
      intro first second hFirst hSecond less
      exact (alike first ((same first).mpr hFirst) second ((same second).mpr hSecond)).mpr less
    have distinct : one.Nodup := ascends.imp fun less equal => by simp [equal] at less
    have otherDistinct : other.Nodup := ascendsToo.imp fun less equal => by simp [equal] at less
    have perm : one.Perm other := (perm_ext_iff_of_nodup distinct otherDistinct).mpr same
    apply perm.eq_of_pairwise _ ascends ascendsToo
    intro first second _ _ less more
    exact absurd less more.not_gt

/-- The test compares the keys of its values. -/
def Compares (key : Value → Key) : Prop :=
  ∀ one other, before one other = true ↔ key one < key other

namespace Compares

variable {before : Value → Value → Bool} {key : Value → Key}

theorem not_before (compares : Compares before key) (one other : Value) :
    (!before other one) ↔ key one ≤ key other := by
  rw [Bool.not_eq_true', ← Bool.not_eq_true, compares, not_lt]

theorem inOrder_pairwise (compares : Compares before key) (values : List Value) :
    (inOrder before values).Pairwise fun one other => key one ≤ key other := by
  have total : Std.Total fun one other => (!before other one) := ⟨fun one other => by
      rw [compares.not_before, compares.not_before]
      exact le_total _ _⟩
  have trans : IsTrans Value fun one other => (!before other one) :=
    ⟨fun one two three first second => by
      rw [compares.not_before] at first second ⊢
      exact first.trans second⟩
  have sorted := pairwise_insertionSort (fun one other => (!before other one)) values
  exact sorted.imp fun {one other} => (compares.not_before one other).mp

variable {values : List Value}

section

variable (compares : Compares before key)
include compares

theorem inOrder_eq {sorted : List Value} (perm : sorted.Perm values)
    (ascends : sorted.Pairwise fun one other => key one < key other) :
    inOrder before values = sorted := by
  have distinct : (sorted.map key).Nodup :=
    pairwise_map.mpr (ascends.imp fun {one other} (less : key one < key other) => less.ne)
  have same := (inOrder_perm before values).trans perm.symm
  refine List.Perm.eq_of_pairwise ?_ (compares.inOrder_pairwise values)
    (ascends.imp fun {one other} (less : key one < key other) => less.le) same
  intro one other hOne hOther atMost atLeast
  exact inj_on_of_nodup_map distinct (same.subset hOne) hOther (le_antisymm atMost atLeast)

theorem inOrder_increasing (distinct : (values.map key).Nodup) :
    (inOrder before values).Pairwise fun one other => key one < key other := by
  have apart : ((inOrder before values).map key).Nodup :=
    ((inOrder_perm before values).map key).nodup_iff.mpr distinct
  have both := (compares.inOrder_pairwise values).and (pairwise_map.mp apart)
  exact both.imp fun {one other} (less : key one ≤ key other ∧ key one ≠ key other) =>
    lt_of_le_of_ne less.1 less.2

theorem inOrder_filter (distinct : (values.map key).Nodup) (test : Value → Bool) :
    inOrder before (values.filter test) = (inOrder before values).filter test :=
  compares.inOrder_eq ((inOrder_perm before values).filter test)
    ((compares.inOrder_increasing distinct).filter test)

theorem earliest_least {first : Value} (found : earliest before values = some first) :
    ∀ other ∈ values, key first ≤ key other := by
  induction values generalizing first with
  | nil => cases found
  | cons _ _ ih =>
    rw [earliest] at found
    split at found
    · rename_i nothing
      obtain rfl := earliest_eq_none_iff.mp nothing
      cases found
      intro other mem
      rw [mem_singleton.mp mem]
    · rename_i least hLeast
      have later := ih hLeast
      split at found
      · rename_i sooner
        cases found
        intro other mem
        rcases mem_cons.mp mem with rfl | inRest
        · exact ((compares _ _).mp sooner).le
        · exact later other inRest
      · rename_i notSooner
        cases found
        rw [compares, not_lt] at notSooner
        intro other mem
        rcases mem_cons.mp mem with rfl | inRest
        · exact le_rfl
        · exact notSooner.trans (later other inRest)

theorem earliest_eq {first : Value} (mem : first ∈ values)
    (least : ∀ other ∈ values, other ≠ first → key first < key other) :
    earliest before values = some first := by
  cases found : earliest before values with
  | none =>
    rw [earliest_eq_none_iff.mp found] at mem
    cases mem
  | some taken =>
    by_contra different
    have apart : taken ≠ first := fun same => different (by rw [same])
    exact absurd (compares.earliest_least found first mem)
      (not_le.mpr (least taken (earliest_mem found) apart))

end

end Compares

/-- The values without each that repeats the one before it. -/
def withoutRepeats [DecidableEq Value] : List Value → List Value
  | one :: other :: rest =>
    if one = other then withoutRepeats (other :: rest)
    else one :: withoutRepeats (other :: rest)
  | values => values

@[simp] theorem mem_withoutRepeats [DecidableEq Value] {value : Value} :
    value ∈ withoutRepeats values ↔ value ∈ values := by
  fun_induction withoutRepeats values with
  | case1 _ _ ih => simp [ih]
  | case2 _ _ _ _ ih =>
    rw [mem_cons, ih]
    simp
  | case3 => rfl

variable {keys : List Key}

theorem withoutRepeats_pairwise (ascends : keys.Pairwise (· ≤ ·)) :
    (withoutRepeats keys).Pairwise (· < ·) := by
  fun_induction withoutRepeats keys with
  | case1 _ _ ih => exact ih (pairwise_cons.mp ascends).2
  | case2 one other _ different ih =>
    obtain ⟨first, later⟩ := pairwise_cons.mp ascends
    have least := (pairwise_cons.mp later).1
    have less : one < other := lt_of_le_of_ne (first other (.head _)) different
    refine pairwise_cons.mpr ⟨?_, ih later⟩
    intro key mem
    rcases mem_cons.mp (mem_withoutRepeats.mp mem) with rfl | inRest
    · exact less
    · exact less.trans_le (least key inRest)
  | case3 keys short =>
    cases keys with
    | nil => exact List.Pairwise.nil
    | cons one rest =>
      cases rest with
      | nil => exact pairwise_singleton _ _
      | cons other rest => exact absurd rfl (short one other rest)

/-- The keys once each, in ascending order. -/
def ascendingKeys (keys : List Key) : List Key :=
  withoutRepeats (inOrder (fun one other => decide (one < other)) keys)

theorem mem_ascendingKeys {key : Key} : key ∈ ascendingKeys keys ↔ key ∈ keys := by
  rw [ascendingKeys, mem_withoutRepeats, mem_inOrder]

theorem ascendingKeys_pairwise (keys : List Key) : (ascendingKeys keys).Pairwise (· < ·) := by
  have compares : Compares (fun one other : Key => decide (one < other)) id := by
    intro one other
    exact decide_eq_true_iff
  exact withoutRepeats_pairwise (compares.inOrder_pairwise keys)

theorem withoutRepeats_of_pairwise (ascends : keys.Pairwise (· < ·)) :
    withoutRepeats keys = keys := by
  fun_induction withoutRepeats keys with
  | case1 other =>
    exact absurd ((pairwise_cons.mp ascends).1 other (.head _)) (lt_irrefl _)
  | case2 _ _ _ _ ih => rw [ih (pairwise_cons.mp ascends).2]
  | case3 => rfl

theorem ascendingKeys_of_pairwise (ascends : keys.Pairwise (· < ·)) :
    ascendingKeys keys = keys := by
  have compares : Compares (fun one other : Key => decide (one < other)) id := by
    intro one other
    exact decide_eq_true_iff
  rw [ascendingKeys, compares.inOrder_eq (List.Perm.refl keys) ascends,
    withoutRepeats_of_pairwise ascends]

/-- A set of keys, in ascending order. -/
structure SortedSet (Key : Type u) [LinearOrder Key] where
  keys : List Key
  ascends : keys.Pairwise (· < ·)

namespace SortedSet

@[ext] theorem ext {Key : Type u} [LinearOrder Key] {one other : SortedSet Key}
    (same : one.keys = other.keys) : one = other := by
  cases one
  cases other
  cases same
  rfl

instance : DecidableEq (SortedSet Key) := fun one other =>
  decidable_of_iff (one.keys = other.keys) ⟨ext, fun same => same ▸ rfl⟩

def collect (keys : List Key) : SortedSet Key := ⟨ascendingKeys keys, ascendingKeys_pairwise keys⟩

@[simp] theorem mem_collect {key : Key} : key ∈ (collect keys).keys ↔ key ∈ keys :=
  mem_ascendingKeys

@[simp] theorem collect_keys (set : SortedSet Key) : collect set.keys = set :=
  ext (ascendingKeys_of_pairwise set.ascends)

end SortedSet

end Library
