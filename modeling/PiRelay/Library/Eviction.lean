import Mathlib.Data.List.Nodup
import PiRelay.Library.Loop
import PiRelay.Library.Selection

/-! Evicting from a bounded table. As long as there is more than there may be, the settled
entry that was used least recently goes. When no entry is settled, the table overflows. -/
namespace Library

open List

universe u v

variable {Entry : Type u} {Key : Type v} [DecidableEq Key]

/-- What the eviction looks at: the key of an entry, its last use, and whether it may go. -/
structure Evictable (Entry : Type u) (Key : Type v) where
  key : Entry → Key
  lastUse : Entry → Nat
  settled : Entry → Bool

namespace Evictable

/-- The entries without the settled one that was used least recently. -/
def evictOldest (rule : Evictable Entry Key) (entries : List Entry) : Option (List Entry) :=
  (earliest (fun one other => rule.lastUse one < rule.lastUse other)
      (entries.filter rule.settled)).map fun oldest =>
    entries.eraseP fun entry => rule.key entry = rule.key oldest

variable {rule : Evictable Entry Key} {entries after : List Entry} {exceeds : Nat → Bool}

theorem evictOldest_eq_some (evicted : rule.evictOldest entries = some after) :
    ∃ oldest ∈ entries, rule.settled oldest ∧
      after = entries.eraseP fun entry => rule.key entry = rule.key oldest := by
  obtain ⟨oldest, found, rfl⟩ := Option.map_eq_some_iff.mp evicted
  obtain ⟨mem, settled⟩ := mem_filter.mp (earliest_mem found)
  exact ⟨oldest, mem, settled, rfl⟩

theorem evictOldest_eq_none (stuck : rule.evictOldest entries = none) :
    ∀ entry ∈ entries, rule.settled entry = false := by
  have empty := earliest_eq_none_iff.mp (Option.map_eq_none_iff.mp stuck)
  intro entry mem
  exact Bool.eq_false_iff.mpr (filter_eq_nil_iff.mp empty entry mem)

theorem length_of_evictOldest (evicted : rule.evictOldest entries = some after) :
    after.length + 1 = entries.length := by
  obtain ⟨_, mem, -, rfl⟩ := evictOldest_eq_some evicted
  rw [length_eraseP_of_mem mem (by simp)]
  have positive := length_pos_of_mem mem
  omega

/-- One more entry goes, unless there are few enough or none is settled. -/
def evictOnce (rule : Evictable Entry Key) (exceeds : Nat → Bool) (entries : List Entry) :
    Option (List Entry) :=
  if exceeds entries.length then rule.evictOldest entries else none

theorem evictOnce_eq_some (evicted : rule.evictOnce exceeds entries = some after) :
    rule.evictOldest entries = some after := by
  rw [evictOnce] at evicted
  split at evicted
  · exact evicted
  · cases evicted

theorem evictOnce_eq_none (stuck : rule.evictOnce exceeds entries = none) :
    exceeds entries.length = false ∨ ∀ entry ∈ entries, rule.settled entry = false := by
  rw [evictOnce] at stuck
  split at stuck
  · exact .inr (evictOldest_eq_none stuck)
  · rename_i fits
    exact .inl (Bool.eq_false_iff.mpr fits)

def evictLoop (rule : Evictable Entry Key) (exceeds : Nat → Bool) : Loop (List Entry) where
  body entries :=
    match rule.evictOnce exceeds entries with
    | some rest => (rest, true)
    | none => (entries, false)
  measure := List.length
  decreases entries again := by
    cases evicted : rule.evictOnce exceeds entries with
    | none => simp [evicted] at again
    | some rest =>
      have shorter := length_of_evictOldest (evictOnce_eq_some evicted)
      change rest.length < entries.length
      omega

/-- A `while` loop around the eviction. -/
def evictWhile (rule : Evictable Entry Key) (exceeds : Nat → Bool) (entries : List Entry) :
    List Entry :=
  (rule.evictLoop exceeds).run entries

/-- What is left: every entry that is not settled, and more than there may be only when
there is nothing else. -/
structure Trims (rule : Evictable Entry Key) (exceeds : Nat → Bool) (entries after : List Entry) :
    Prop where
  sublist : after.Sublist entries
  keeps : ∀ entry ∈ entries, rule.settled entry = false → entry ∈ after
  bounded : exceeds after.length = false ∨ ∀ entry ∈ after, rule.settled entry = false

theorem keeps_of_evictOldest (distinct : (entries.map rule.key).Nodup)
    (evicted : rule.evictOldest entries = some after) :
    ∀ entry ∈ entries, rule.settled entry = false → entry ∈ after := by
  obtain ⟨_, isOldest, settled, rfl⟩ := evictOldest_eq_some evicted
  intro entry mem unsettled
  refine (mem_eraseP_of_neg ?_).mpr mem
  intro same
  have equal := inj_on_of_nodup_map distinct mem isOldest (of_decide_eq_true same)
  rw [equal, settled] at unsettled
  cases unsettled

theorem evictWhile_of_none (stuck : rule.evictOnce exceeds entries = none) :
    rule.evictWhile exceeds entries = entries := by
  have body : (rule.evictLoop exceeds).body entries = (entries, false) := by
    simp [evictLoop, stuck]
  rw [evictWhile, Loop.run_of_stop _ (by rw [body]), body]

theorem evictWhile_of_some (evicted : rule.evictOnce exceeds entries = some after) :
    rule.evictWhile exceeds entries = rule.evictWhile exceeds after := by
  have body : (rule.evictLoop exceeds).body entries = (after, true) := by
    simp [evictLoop, evicted]
  rw [evictWhile, Loop.run_of_again _ (by rw [body]), body, evictWhile]

/-- The eviction removes settled entries, until the bound holds or none is left. -/
theorem evictWhile_trims (distinct : (entries.map rule.key).Nodup) :
    rule.Trims exceeds entries (rule.evictWhile exceeds entries) := by
  induction size : entries.length using Nat.strongRecOn generalizing entries with
  | ind _ ih =>
    cases evicted : rule.evictOnce exceeds entries with
    | none =>
      rw [evictWhile_of_none evicted]
      exact ⟨.refl entries, fun _ mem _ => mem, evictOnce_eq_none evicted⟩
    | some rest =>
      rw [evictWhile_of_some evicted]
      have gone := evictOnce_eq_some evicted
      obtain ⟨_, _, _, isRest⟩ := evictOldest_eq_some gone
      have shorter := length_of_evictOldest gone
      have sublist : rest.Sublist entries := isRest ▸ eraseP_sublist
      have trims := ih rest.length (by omega) (distinct.sublist (sublist.map rule.key)) rfl
      refine ⟨trims.sublist.trans sublist, ?_, trims.bounded⟩
      intro entry mem unsettled
      exact trims.keeps entry (keeps_of_evictOldest distinct gone entry mem unsettled) unsettled

theorem evictWhile_of_fits (fits : exceeds entries.length = false) :
    rule.evictWhile exceeds entries = entries := by
  apply evictWhile_of_none
  rw [evictOnce, fits]
  rfl

end Evictable

end Library
