import Mathlib.Algebra.Ring.Int.Defs
import Mathlib.Data.List.Nodup

/-! Tables of rows that statements update in place and append to. What a statement
may do to one row is a relation between the row before and after; a table evolves
when every row it has takes such a move and the rows that follow are new. -/
namespace Library

open List

universe u v

variable {Row : Type u} {Key : Type v}

/-- An update statement changes the rows it admits; there is nothing where it reaches
none. -/
def updateWhere (rows : List Row) (admits : Row → Bool) (change : Row → Row) : Option (List Row) :=
  if rows.any admits then some (rows.map fun row => if admits row then change row else row)
  else none

variable {rows : List Row}

variable {change : Row → Row}

theorem updateWhere_eq_some_iff {after : List Row} {admits : Row → Bool} :
    updateWhere rows admits change = some after ↔
      (∃ row ∈ rows, admits row) ∧
        (rows.map fun row => if admits row then change row else row) = after := by
  rw [updateWhere]
  split
  · rename_i reached
    rw [any_eq_true] at reached
    simp [reached]
  · rename_i missed
    rw [any_eq_true] at missed
    simp [missed]

theorem length_filter_key_le_one [DecidableEq Key] {key : Row → Option Key}
    (distinct : (rows.filterMap key).Nodup) (sought : Key) :
    (rows.filter fun row => key row == some sought).length ≤ 1 := by
  induction rows with
  | nil => exact Nat.zero_le _
  | cons row rest ih =>
    cases hKey : key row with
    | none =>
      rw [filterMap_cons_none hKey] at distinct
      rw [filter_cons_of_neg (by simp [hKey])]
      exact ih distinct
    | some found =>
      rw [filterMap_cons_some hKey, nodup_cons] at distinct
      by_cases same : found = sought
      · subst same
        have others : (rest.filter fun row => key row == some found) = [] := by
          rw [filter_eq_nil_iff]
          intro other mem isSought
          exact distinct.1 (mem_filterMap.mpr ⟨other, mem, beq_iff_eq.mp isSought⟩)
        rw [filter_cons_of_pos (by simp [hKey]), others]
        exact Nat.le_refl _
      · rw [filter_cons_of_neg (by simp [hKey, same])]
        exact ih distinct.2

/-- A change that lets no row in does not raise the weight counted. -/
theorem sum_counted_le {counts : Row → Bool} {weight : Row → Int}
    (nonneg : ∀ row ∈ rows, 0 ≤ weight row) (same : ∀ row ∈ rows, weight (change row) = weight row)
    (leaves : ∀ row ∈ rows, counts (change row) → counts row) :
    (((rows.map change).filter counts).map weight).sum ≤ ((rows.filter counts).map weight).sum := by
  induction rows with
  | nil => exact Int.le_refl _
  | cons row _ ih =>
    have restLe := ih (forall_mem_cons.mp nonneg).2 (forall_mem_cons.mp same).2
      (forall_mem_cons.mp leaves).2
    have rowNonneg := nonneg row (.head _)
    have rowSame := same row (.head _)
    have rowLeaves := leaves row (.head _)
    rw [map_cons, filter_cons, filter_cons]
    by_cases counted : counts row
    · by_cases stays : counts (change row)
      · rw [if_pos stays, if_pos counted, map_cons, map_cons, sum_cons, sum_cons, rowSame]
        omega
      · rw [if_neg stays, if_pos counted, map_cons, sum_cons]
        omega
    · rw [if_neg counted, if_neg fun stays => counted (rowLeaves stays)]
      exact restLe

/-- Every row takes a move, and new rows follow. -/
def Evolves (move : Row → Row → Prop) (born : Row → Prop) (rows after : List Row) : Prop :=
  ∃ change added, after = rows.map change ++ added
    ∧ (∀ row ∈ rows, move row (change row)) ∧ ∀ row ∈ added, born row

namespace Evolves

variable {move : Row → Row → Prop} {born : Row → Prop} {rows after : List Row}

theorem refl (stays : ∀ row ∈ rows, move row row) : Evolves move born rows rows :=
  ⟨id, [], by simp, stays, by simp⟩

theorem of_map (moves : ∀ row ∈ rows, move row (change row)) :
    Evolves move born rows (rows.map change) :=
  ⟨change, [], by simp, moves, by simp⟩

/-- An `update` moves the rows it admits and leaves the others. -/
theorem of_update {admits : Row → Bool} (stays : ∀ row ∈ rows, admits row = false → move row row)
    (moves : ∀ row ∈ rows, admits row → move row (change row)) :
    Evolves move born rows (rows.map fun row => if admits row then change row else row) := by
  apply of_map
  intro row mem
  by_cases admitted : admits row
  · rw [if_pos admitted]
    exact moves row mem admitted
  · rw [if_neg admitted]
    exact stays row mem (by simpa using admitted)

theorem append {added : List Row} (stays : ∀ row ∈ rows, move row row)
    (new : ∀ row ∈ added, born row) : Evolves move born rows (rows ++ added) :=
  ⟨id, added, by simp, stays, new⟩

theorem successor (evolves : Evolves move born rows after) {row : Row} (mem : row ∈ rows) :
    ∃ next ∈ after, move row next := by
  obtain ⟨change, -, rfl, moves, -⟩ := evolves
  exact ⟨change row, mem_append_left _ (mem_map_of_mem mem), moves row mem⟩

theorem predecessor (evolves : Evolves move born rows after) {next : Row} (mem : next ∈ after) :
    born next ∨ ∃ row ∈ rows, move row next := by
  obtain ⟨_, _, rfl, moves, new⟩ := evolves
  rcases mem_append.mp mem with moved | isNew
  · obtain ⟨row, inRows, rfl⟩ := mem_map.mp moved
    exact .inr ⟨row, inRows, moves row inRows⟩
  · exact .inl (new next isNew)

theorem trans {later : List Row} {first second : Row → Row → Prop}
    (prior : Evolves first born rows after) (next : Evolves second born after later)
    (compose : ∀ row middle last, first row middle → second middle last → move row last)
    (grows : ∀ row last, born row → second row last → born last) :
    Evolves move born rows later := by
  obtain ⟨change, added, rfl, moves, new⟩ := prior
  obtain ⟨changeNext, addedNext, rfl, movesNext, newNext⟩ := next
  refine ⟨changeNext ∘ change, added.map changeNext ++ addedNext, by simp, ?_, ?_⟩
  · intro row mem
    exact compose _ _ _ (moves row mem) (movesNext _ (mem_append_left _ (mem_map_of_mem mem)))
  · intro row mem
    rcases mem_append.mp mem with moved | isNew
    · obtain ⟨prior, isAdded, rfl⟩ := mem_map.mp moved
      exact grows prior _ (new prior isAdded) (movesNext prior (mem_append_right _ isAdded))
    · exact newNext row isNew

theorem mono {wider : Row → Row → Prop} {widerBorn : Row → Prop}
    (evolves : Evolves move born rows after)
    (moves : ∀ row ∈ rows, ∀ next, move row next → wider row next)
    (borns : ∀ row, born row → widerBorn row) : Evolves wider widerBorn rows after := by
  obtain ⟨change, added, rfl, taken, new⟩ := evolves
  exact ⟨change, added, rfl, fun row mem => moves row mem _ (taken row mem),
    fun row mem => borns row (new row mem)⟩

/-- Where a move keeps the key of a row and a new row has a fresh key, keys stay
distinct. -/
theorem distinct {key : Row → Key} (moves : ∀ row next, move row next → key next = key row)
    (fresh : ∀ row, born row → ∀ other ∈ rows, key other ≠ key row)
    (evolves : Evolves move born rows after)
    (alone : ∀ added, after.length = rows.length + added → added ≤ 1)
    (distinct : (rows.map key).Nodup) : (after.map key).Nodup := by
  obtain ⟨change, added, rfl, taken, new⟩ := evolves
  have few : added.length ≤ 1 := alone added.length (by simp)
  have kept : (rows.map change).map key = rows.map key := by
    rw [map_map]
    exact map_congr_left fun row mem => moves _ _ (taken row mem)
  rw [map_append, kept, nodup_append]
  refine ⟨distinct, ?_, ?_⟩
  · match added, few with
    | [], _ => exact nodup_nil
    | [_], _ => exact nodup_singleton _
  · intro first inRows second isNew same
    obtain ⟨row, mem, rfl⟩ := mem_map.mp inRows
    obtain ⟨other, isAdded, rfl⟩ := mem_map.mp isNew
    exact fresh other (new other isAdded) row mem same

end Evolves

end Library
