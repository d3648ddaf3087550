import Mathlib.Data.List.Sort

/-! Maps whose entries stand in the order of their keys, one entry for each key. -/
namespace Library

open List Option

universe u v w

section Entries

variable {Key : Type u} {Value : Type v} [LinearOrder Key]

/-- The entries stand in the order of their keys, which are distinct. -/
def Ascends (entries : List (Key × Value)) : Prop :=
  entries.Pairwise fun one other => one.1 < other.1

/-- An entry takes the place of the one under its key, or its own place in the order. -/
def insertEntry (key : Key) (value : Value) : List (Key × Value) → List (Key × Value)
  | [] => [(key, value)]
  | entry :: rest =>
    if key < entry.1 then (key, value) :: entry :: rest
    else if key = entry.1 then (key, value) :: rest
    else entry :: insertEntry key value rest

/-- The entries in the order of their keys; the last one under a key stays. -/
def collectEntries (entries : List (Key × Value)) : List (Key × Value) :=
  entries.foldl (fun built entry => insertEntry entry.1 entry.2 built) []

variable {key : Key} {entries built : List (Key × Value)} {entry : Key × Value}

theorem mem_insertEntry {value : Value} (mem : entry ∈ insertEntry key value entries) :
    entry = (key, value) ∨ entry ∈ entries := by
  induction entries with
  | nil => simpa [insertEntry] using mem
  | cons _ _ ih =>
    rw [insertEntry] at mem
    split at mem
    · simpa using mem
    · split at mem
      · rcases mem_cons.mp mem with isNew | inRest
        · exact .inl isNew
        · exact .inr (.tail _ inRest)
      · rcases mem_cons.mp mem with isFirst | inRest
        · exact .inr (by simp [isFirst])
        · rcases ih inRest with isNew | old
          · exact .inl isNew
          · exact .inr (.tail _ old)

theorem mem_insertEntry_self {value : Value} : (key, value) ∈ insertEntry key value entries := by
  induction entries with
  | nil => exact .head _
  | cons _ _ ih =>
    rw [insertEntry]
    split
    · exact .head _
    · split
      · exact .head _
      · exact .tail _ ih

theorem insertEntry_ascends (key : Key) (value : Value) (ascends : Ascends entries) :
    Ascends (insertEntry key value entries) := by
  induction entries with
  | nil => simp [insertEntry, Ascends]
  | cons _ _ ih =>
    have split := pairwise_cons.mp ascends
    rw [insertEntry]
    split
    · rename_i less
      apply pairwise_cons.mpr
      constructor
      · intro other mem
        rcases mem_cons.mp mem with rfl | inRest
        · exact less
        · exact less.trans (split.1 other inRest)
      · exact ascends
    · split
      · rename_i same
        apply pairwise_cons.mpr
        constructor
        · intro other inRest
          exact same ▸ split.1 other inRest
        · exact split.2
      · rename_i notLess different
        apply pairwise_cons.mpr
        constructor
        · intro other mem
          rcases mem_insertEntry mem with rfl | inRest
          · exact lt_of_le_of_ne (not_lt.mp notLess) (Ne.symm different)
          · exact split.1 other inRest
        · exact ih split.2

theorem insertEntry_ne_nil (key : Key) (value : Value) (entries : List (Key × Value)) :
    insertEntry key value entries ≠ [] := by
  cases entries with
  | nil => simp [insertEntry]
  | cons =>
    rw [insertEntry]
    split
    · simp
    · split <;> simp

theorem insertEntry_last (value : Value) (last : ∀ entry ∈ entries, entry.1 < key) :
    insertEntry key value entries = entries ++ [(key, value)] := by
  induction entries with
  | nil => rfl
  | cons first _ ih =>
    have less := last first (.head _)
    rw [insertEntry, if_neg less.not_gt, if_neg less.ne',
      ih (forall_mem_cons.mp last).2, cons_append]

private theorem foldl_insertEntry_ascends (entries : List (Key × Value)) (ascends : Ascends built) :
    Ascends (entries.foldl (fun built entry => insertEntry entry.1 entry.2 built) built) := by
  induction entries generalizing built with
  | nil => exact ascends
  | cons _ _ ih => exact ih (insertEntry_ascends _ _ ascends)

theorem collectEntries_ascends (entries : List (Key × Value)) : Ascends (collectEntries entries) :=
  foldl_insertEntry_ascends entries List.Pairwise.nil

private theorem mem_foldl_insertEntry
    (mem : entry ∈ entries.foldl (fun built entry => insertEntry entry.1 entry.2 built) built) :
    entry ∈ entries ∨ entry ∈ built := by
  induction entries generalizing built with
  | nil => exact .inr mem
  | cons _ _ ih =>
    rcases ih mem with inRest | inBuilt
    · exact .inl (.tail _ inRest)
    · rcases mem_insertEntry inBuilt with isFirst | old
      · exact .inl (by simp [isFirst])
      · exact .inr old

theorem mem_of_mem_collectEntries (mem : entry ∈ collectEntries entries) : entry ∈ entries := by
  rcases mem_foldl_insertEntry mem with listed | inNothing
  · exact listed
  · cases inNothing

theorem collectEntries_ne_nil (listed : entries ≠ []) : collectEntries entries ≠ [] := by
  rcases eq_nil_or_concat' entries with rfl | ⟨before, last, rfl⟩
  · exact absurd rfl listed
  · rw [collectEntries, foldl_append]
    exact insertEntry_ne_nil _ _ _

private theorem foldl_insertEntry_of_ascends (ascends : Ascends (built ++ entries)) :
    entries.foldl (fun built entry => insertEntry entry.1 entry.2 built) built
      = built ++ entries := by
  induction entries generalizing built with
  | nil => simp
  | cons entry _ ih =>
    have last : ∀ other ∈ built, other.1 < entry.1 := fun other mem =>
      (pairwise_append.mp ascends).2.2 other mem entry (.head _)
    rw [foldl_cons, insertEntry_last _ last, ih (by simpa using ascends)]
    simp

theorem collectEntries_of_ascends (ascends : Ascends entries) : collectEntries entries = entries :=
  foldl_insertEntry_of_ascends (show Ascends ([] ++ entries) from ascends)

theorem insertEntry_perm (value : Value) (fresh : key ∉ entries.map Prod.fst) :
    (insertEntry key value entries).Perm ((key, value) :: entries) := by
  induction entries with
  | nil => exact List.Perm.refl _
  | cons entry _ ih =>
    rw [map_cons, mem_cons, not_or] at fresh
    rw [insertEntry]
    split
    · exact List.Perm.refl _
    · rw [if_neg fresh.1]
      exact ((ih fresh.2).cons entry).trans (List.Perm.swap _ _ _)

private theorem foldl_insertEntry_perm (distinct : ((built ++ entries).map Prod.fst).Nodup) :
    (entries.foldl (fun built entry => insertEntry entry.1 entry.2 built) built).Perm
      (built ++ entries) := by
  induction entries generalizing built with
  | nil => simp
  | cons entry rest ih =>
    have fresh : entry.1 ∉ built.map Prod.fst := by
      intro mem
      rw [map_append, nodup_append] at distinct
      exact distinct.2.2 _ mem _ (by simp) rfl
    have inserted : (insertEntry entry.1 entry.2 built ++ rest).Perm (built ++ entry :: rest) :=
      ((insertEntry_perm entry.2 fresh).append_right rest).trans perm_middle.symm
    exact (ih ((inserted.map Prod.fst).nodup_iff.mpr distinct)).trans inserted

theorem collectEntries_perm (distinct : (entries.map Prod.fst).Nodup) :
    (collectEntries entries).Perm entries :=
  foldl_insertEntry_perm (show (([] ++ entries).map Prod.fst).Nodup from distinct)

theorem Ascends.map {Other : Type w} (ascends : Ascends entries) (change : Key × Value → Other) :
    Ascends (entries.map fun entry => (entry.1, change entry)) :=
  pairwise_map.mpr ascends

theorem Ascends.keys_nodup (ascends : Ascends entries) : (entries.map Prod.fst).Nodup := by
  apply pairwise_map.mpr
  apply List.Pairwise.imp _ ascends
  intro one other less
  exact less.ne

theorem lookup_eq_some_iff (distinct : (entries.map Prod.fst).Nodup) {value : Value} :
    entries.lookup key = some value ↔ (key, value) ∈ entries := by
  induction entries with
  | nil => simp
  | cons entry _ ih =>
    obtain ⟨first, stored⟩ := entry
    rw [map_cons, nodup_cons] at distinct
    by_cases same : key = first
    · subst same
      constructor
      · intro found
        have isStored : stored = value := by simpa using found
        simp [isStored]
      · intro mem
        rcases mem_cons.mp mem with isFirst | inRest
        · cases isFirst
          simp
        · exact absurd (mem_map_of_mem inRest) distinct.1
    · have apart := beq_eq_false_iff_ne.mpr same
      rw [lookup_cons, apart, ih distinct.2]
      simp [same]

theorem lookup_collectEntries (distinct : (entries.map Prod.fst).Nodup) (key : Key) :
    (collectEntries entries).lookup key = entries.lookup key := by
  have perm := collectEntries_perm distinct
  ext value
  rw [lookup_eq_some_iff distinct, ← perm.mem_iff,
    lookup_eq_some_iff ((perm.map Prod.fst).nodup_iff.mpr distinct)]

theorem lookup_map_values {Other : Type w} (entries : List (Key × Value))
    (change : Key → Value → Other) (key : Key) :
    (entries.map fun entry => (entry.1, change entry.1 entry.2)).lookup key
      = (entries.lookup key).map (change key) := by
  induction entries with
  | nil => rfl
  | cons entry _ ih =>
    rw [map_cons, lookup_cons, lookup_cons, ih]
    cases same : key == entry.1 with
    | true =>
      obtain rfl := beq_iff_eq.mp same
      rfl
    | false => rfl

end Entries

/-- Entries in the order of their keys, one for each key. -/
structure SortedMap (Key : Type u) (Value : Type v) [LinearOrder Key] where
  entries : List (Key × Value)
  ascends : Ascends entries

namespace SortedMap

variable {Key : Type u} {Value : Type v} {Other : Type w} [LinearOrder Key]

@[ext] theorem ext {one other : SortedMap Key Value} (same : one.entries = other.entries) :
    one = other := by
  cases one
  cases other
  cases same
  rfl

def empty : SortedMap Key Value := ⟨[], List.Pairwise.nil⟩

/-- The map of a list of entries; the last one under a key stays. -/
def collect (entries : List (Key × Value)) : SortedMap Key Value :=
  ⟨collectEntries entries, collectEntries_ascends entries⟩

variable (map : SortedMap Key Value)

def insert (key : Key) (value : Value) : SortedMap Key Value :=
  ⟨insertEntry key value map.entries, insertEntry_ascends key value map.ascends⟩

def get (key : Key) : Option Value := map.entries.lookup key

def keys : List Key := map.entries.map Prod.fst

/-- The map with every value changed. -/
def mapValues (change : Key → Value → Other) : SortedMap Key Other :=
  ⟨map.entries.map fun entry => (entry.1, change entry.1 entry.2),
    map.ascends.map fun entry => change entry.1 entry.2⟩

/-- The map with the values that a choice gives for the keys it keeps. -/
def filterMapValues (choose : Key → Value → Option Other) : SortedMap Key Other where
  entries := map.entries.filterMap fun entry => (choose entry.1 entry.2).map (entry.1, ·)
  ascends := by
    apply map.ascends.filterMap
    intro one other less chosen isChosen another isAnother
    obtain ⟨value, -, rfl⟩ := map_eq_some_iff.mp isChosen
    obtain ⟨second, -, rfl⟩ := map_eq_some_iff.mp isAnother
    exact less

/-- The keys that are listed, in their order and without repetition. -/
def collectKeys (keys : List Key) : List Key := (collect (keys.map fun key => (key, ()))).keys

theorem collectKeys_ne_nil {keys : List Key} (listed : keys ≠ []) : collectKeys keys ≠ [] := by
  have entries : keys.map (fun key => (key, ())) ≠ [] := by simpa using listed
  simpa [collectKeys, SortedMap.keys, collect] using collectEntries_ne_nil entries

theorem get_eq_some_iff {map : SortedMap Key Value} {key : Key} {value : Value} :
    map.get key = some value ↔ (key, value) ∈ map.entries :=
  lookup_eq_some_iff map.ascends.keys_nodup

theorem mem_keys_iff {map : SortedMap Key Value} {key : Key} :
    key ∈ map.keys ↔ ∃ value, map.get key = some value := by
  simp [keys, get_eq_some_iff]

/-- Choosing values acts on each key alone. -/
theorem get_filterMapValues (choose : Key → Value → Option Other)
    (key : Key) : (map.filterMapValues choose).get key = (map.get key).bind (choose key) := by
  ext other
  rw [get_eq_some_iff, bind_eq_some_iff]
  constructor
  · intro mem
    obtain ⟨entry, listed, chosen⟩ := mem_filterMap.mp mem
    obtain ⟨value, isValue, same⟩ := map_eq_some_iff.mp chosen
    cases same
    exact ⟨entry.2, get_eq_some_iff.mpr listed, isValue⟩
  · rintro ⟨value, found, chosen⟩
    apply mem_filterMap.mpr
    exact ⟨(key, value), get_eq_some_iff.mp found, by simp [chosen]⟩

theorem sublist_of_subset {one other : SortedMap Key Value}
    (part : ∀ key value, one.get key = some value → other.get key = some value) :
    one.entries.Sublist other.entries := by
  apply sublist_of_subperm_of_pairwise _ one.ascends other.ascends
  apply subperm_of_subset (one.ascends.keys_nodup.of_map _)
  intro entry mem
  exact get_eq_some_iff.mp (part entry.1 entry.2 (get_eq_some_iff.mpr mem))

@[simp] theorem get_mapValues (change : Key → Value → Other)
    (key : Key) : (map.mapValues change).get key = (map.get key).map (change key) :=
  lookup_map_values map.entries change key

end SortedMap

end Library
