import Mathlib.Algebra.Order.Ring.WithTop
import Mathlib.Data.Nat.Cast.Order.Basic
import Mathlib.Data.Prod.Lex
import PiRelay.AgentStore.InputQueue

/-! The dispatch order as an order of keys, and what keeps the follow-ups of a mailbox
in their places. -/
namespace PiRelay.Store

open AgentVocab AgentCore Session List
open Library (inOrder inOrder_perm mem_inOrder Compares)

namespace MailboxRow

/-- A missing position is behind every other one. -/
def positionKey (row : MailboxRow) : WithTop ℕ :=
  match row.followUpPosition with
  | some position => position
  | none => ⊤

/-- Steers come first, by the time they became steers, then follow-ups by position, and
those without one last; ties go by creation and id. -/
def dispatchKey (row : MailboxRow) : ℕ ×ₗ WithTop ℕ ×ₗ ℕ ×ₗ String :=
  match row.priority with
  | .steer =>
    toLex (0, toLex (((row.promotedAt.getD row.createdAt : ℕ) : WithTop ℕ),
      toLex (row.createdAt, row.id)))
  | .followUp => toLex (1, toLex (row.positionKey, toLex (row.createdAt, row.id)))

theorem createdBefore_iff (row other : MailboxRow) :
    row.createdBefore other ↔
      toLex (row.createdAt, row.id) < toLex (other.createdAt, other.id) := by
  rw [createdBefore, Prod.Lex.lt_iff]
  simp

theorem dispatchedBefore_compares : Compares dispatchedBefore dispatchKey := by
  intro row other
  rw [dispatchedBefore, dispatchKey, dispatchKey]
  cases hRow : row.priority with
  | steer =>
    cases hOther : other.priority with
    | steer => simp [Prod.Lex.lt_iff, promotedAt, row.createdBefore_iff other]
    | followUp => simp [Prod.Lex.lt_iff]
  | followUp =>
    cases hOther : other.priority with
    | steer => simp [Prod.Lex.lt_iff]
    | followUp =>
      cases hPosition : row.followUpPosition with
      | none =>
        cases hOtherPosition : other.followUpPosition with
        | none =>
          simp [Prod.Lex.lt_iff, positionKey, hPosition, hOtherPosition,
            row.createdBefore_iff other]
        | some => simp [Prod.Lex.lt_iff, positionKey, hPosition, hOtherPosition]
      | some =>
        cases hOtherPosition : other.followUpPosition with
        | none => simp [Prod.Lex.lt_iff, positionKey, hPosition, hOtherPosition]
        | some =>
          simp [Prod.Lex.lt_iff, positionKey, hPosition, hOtherPosition,
            row.createdBefore_iff other]

theorem dispatchKey_id (row : MailboxRow) :
    (ofLex (ofLex (ofLex row.dispatchKey).2).2).2 = row.id := by
  rw [dispatchKey]
  cases row.priority <;> rfl

variable {row other : MailboxRow}

theorem id_of_dispatchKey (same : row.dispatchKey = other.dispatchKey) : row.id = other.id := by
  rw [← row.dispatchKey_id, ← other.dispatchKey_id, same]

theorem isQueuedFollowUp_iff :
    row.isQueuedFollowUp ↔ row.status = .queued ∧ row.priority = .followUp := by
  simp [isQueuedFollowUp]

/-- Both have positions, and one is smaller. -/
def PlacedBefore (row other : MailboxRow) : Prop :=
  ∃ position otherPosition, row.followUpPosition = some position
    ∧ other.followUpPosition = some otherPosition ∧ position < otherPosition

theorem PlacedBefore.position_ne (placed : row.PlacedBefore other) :
    row.followUpPosition ≠ other.followUpPosition := by
  obtain ⟨_, _, hRow, hOther, _⟩ := placed
  rw [hRow, hOther]
  intro same
  have equal := Option.some.inj same
  omega

theorem PlacedBefore.key (placed : row.PlacedBefore other) (followUp : row.isQueuedFollowUp)
    (otherFollowUp : other.isQueuedFollowUp) : row.dispatchKey < other.dispatchKey := by
  obtain ⟨_, _, hRow, hOther, less⟩ := placed
  rw [← dispatchedBefore_compares, dispatchedBefore, (isQueuedFollowUp_iff.mp followUp).2,
    (isQueuedFollowUp_iff.mp otherFollowUp).2]
  simp [hRow, hOther, less]

end MailboxRow

/-- Every row has a position, and the positions grow along the list. -/
structure InPlace (rows : List MailboxRow) : Prop where
  placed : ∀ row ∈ rows, row.followUpPosition.isSome = true
  ascends : rows.Pairwise MailboxRow.PlacedBefore

variable {rows : List MailboxRow} {row : MailboxRow} {inputIds : List String}

theorem InPlace.sublist {shorter : List MailboxRow} (inPlace : InPlace rows)
    (sublist : shorter.Sublist rows) : InPlace shorter where
  placed := fun row mem => inPlace.placed row (sublist.subset mem)
  ascends := inPlace.ascends.sublist sublist

theorem InPlace.map (inPlace : InPlace rows) {change : MailboxRow → MailboxRow}
    (keeps : ∀ row ∈ rows, (change row).followUpPosition = row.followUpPosition) :
    InPlace (rows.map change) where
  placed := by
    intro row mem
    obtain ⟨prior, inRows, rfl⟩ := mem_map.mp mem
    rw [keeps prior inRows]
    exact inPlace.placed prior inRows
  ascends := by
    rw [pairwise_map]
    apply inPlace.ascends.imp_of_mem
    rintro row other inRows otherInRows ⟨position, otherPosition, hRow, hOther, less⟩
    exact ⟨position, otherPosition, (keeps row inRows).trans hRow,
      (keeps other otherInRows).trans hOther, less⟩

theorem InPlace.concat (inPlace : InPlace rows) {position : Nat}
    (placed : row.followUpPosition = some position)
    (last : ∀ other ∈ rows, ∀ before, other.followUpPosition = some before → before < position) :
    InPlace (rows ++ [row]) where
  placed := by
    intro other mem
    rcases mem_append.mp mem with inRows | isNew
    · exact inPlace.placed other inRows
    · rw [mem_singleton.mp isNew, placed]
      rfl
  ascends := by
    rw [pairwise_append]
    refine ⟨inPlace.ascends, pairwise_singleton _ _, ?_⟩
    intro other inRows new isNew
    obtain rfl := mem_singleton.mp isNew
    obtain ⟨before, hBefore⟩ := Option.isSome_iff_exists.mp (inPlace.placed other inRows)
    exact ⟨before, position, hBefore, placed, last other inRows before hBefore⟩

theorem mem_queuedFollowUps : row ∈ queuedFollowUps rows ↔ row ∈ rows ∧ row.isQueuedFollowUp := by
  rw [queuedFollowUps, inDispatchOrder, mem_inOrder, mem_filter]

theorem queuedFollowUps_perm (rows : List MailboxRow) :
    (queuedFollowUps rows).Perm (rows.filter MailboxRow.isQueuedFollowUp) :=
  inOrder_perm _ _

theorem queuedFollowUps_eq {sorted : List MailboxRow}
    (perm : sorted.Perm (rows.filter MailboxRow.isQueuedFollowUp)) (inPlace : InPlace sorted) :
    queuedFollowUps rows = sorted := by
  apply MailboxRow.dispatchedBefore_compares.inOrder_eq perm
  have followUp : ∀ row ∈ sorted, row.isQueuedFollowUp := fun row mem =>
    (mem_filter.mp (perm.subset mem)).2
  exact inPlace.ascends.imp_of_mem fun {row other} mem otherMember placed =>
    placed.key (followUp row mem) (followUp other otherMember)

theorem queuedFollowUps_concat (inPlace : InPlace (queuedFollowUps rows))
    (followUp : row.isQueuedFollowUp) {position : Nat}
    (placed : row.followUpPosition = some position)
    (last : ∀ other ∈ queuedFollowUps rows, ∀ before,
      other.followUpPosition = some before → before < position) :
    queuedFollowUps (rows ++ [row]) = queuedFollowUps rows ++ [row]
      ∧ InPlace (queuedFollowUps (rows ++ [row])) := by
  have stays := inPlace.concat placed last
  have same : queuedFollowUps (rows ++ [row]) = queuedFollowUps rows ++ [row] := by
    apply queuedFollowUps_eq ?_ stays
    rw [filter_append, filter_singleton, followUp]
    exact (queuedFollowUps_perm rows).append_right _
  rw [same]
  exact ⟨rfl, stays⟩

theorem queuedFollowUps_append_other (rows : List MailboxRow) (other : row.isQueuedFollowUp = false) :
    queuedFollowUps (rows ++ [row]) = queuedFollowUps rows := by
  rw [queuedFollowUps, queuedFollowUps, filter_append, filter_singleton, other]
  simp

theorem queuedFollowUps_map (inPlace : InPlace (queuedFollowUps rows))
    (change : MailboxRow → MailboxRow) (stays : MailboxRow → Bool)
    (left : ∀ row ∈ rows, (change row).isQueuedFollowUp ↔
      row.isQueuedFollowUp ∧ stays row) (keeps : ∀ row ∈ rows, stays row →
      (change row).followUpPosition = row.followUpPosition) :
    queuedFollowUps (rows.map change) = ((queuedFollowUps rows).filter stays).map change
      ∧ InPlace (queuedFollowUps (rows.map change)) := by
  have inRows : ∀ row ∈ (queuedFollowUps rows).filter stays, row ∈ rows ∧ stays row := by
    intro row mem
    obtain ⟨isFollowUp, stay⟩ := mem_filter.mp mem
    exact ⟨(mem_queuedFollowUps.mp isFollowUp).1, stay⟩
  have moved : InPlace (((queuedFollowUps rows).filter stays).map change) :=
    (inPlace.sublist filter_sublist).map fun row mem =>
      keeps row (inRows row mem).1 (inRows row mem).2
  have same : queuedFollowUps (rows.map change) =
      ((queuedFollowUps rows).filter stays).map change := by
    apply queuedFollowUps_eq ?_ moved
    rw [filter_map]
    apply List.Perm.map
    have selected : rows.filter (MailboxRow.isQueuedFollowUp ∘ change) =
        (rows.filter MailboxRow.isQueuedFollowUp).filter stays := by
      rw [filter_filter]
      apply filter_congr
      intro row mem
      rw [Bool.eq_iff_iff, Function.comp_apply, left row mem, Bool.and_eq_true]
      exact And.comm
    rw [selected]
    exact (queuedFollowUps_perm rows).filter _
  rw [same]
  exact ⟨rfl, moved⟩

/-- Rows placed by their index are read in that order. -/
theorem queuedFollowUps_placed (distinct : inputIds.Nodup)
    (named : inputIds.Perm ((rows.filter MailboxRow.isQueuedFollowUp).map MailboxRow.id))
    (placed : ∀ row ∈ rows, row.isQueuedFollowUp →
      row.followUpPosition = some (inputIds.idxOf row.id)) :
    queuedFollowUpIds rows = inputIds ∧ InPlace (queuedFollowUps rows) := by
  have positions : ∀ row ∈ queuedFollowUps rows,
      row.followUpPosition = some (inputIds.idxOf row.id) := by
    intro row mem
    obtain ⟨inRows, followUp⟩ := mem_queuedFollowUps.mp mem
    exact placed row inRows followUp
  have namedInOrder : (queuedFollowUpIds rows).Perm inputIds :=
    ((queuedFollowUps_perm rows).map MailboxRow.id).trans named.symm
  have ordered : (queuedFollowUps rows).Pairwise fun row other =>
      inputIds.idxOf row.id ≤ inputIds.idxOf other.id := by
    have keys := MailboxRow.dispatchedBefore_compares.inOrder_pairwise
      (rows.filter MailboxRow.isQueuedFollowUp)
    apply List.Pairwise.imp_of_mem ?_ keys
    intro row other mem otherMember atMost
    by_contra further
    have less : other.PlacedBefore row :=
      ⟨_, _, positions other otherMember, positions row mem, by omega⟩
    exact absurd (less.key (mem_queuedFollowUps.mp otherMember).2 (mem_queuedFollowUps.mp mem).2)
      (not_lt.mpr atMost)
  have distinctIds := namedInOrder.nodup_iff.mpr distinct
  have apart := pairwise_map.mp distinctIds
  have mem : ∀ row ∈ queuedFollowUps rows, row.id ∈ inputIds := fun row inOrder =>
    namedInOrder.subset (mem_map_of_mem inOrder)
  constructor
  · have listed : inputIds.Pairwise fun one other => inputIds.idxOf one ≤ inputIds.idxOf other := by
      rw [pairwise_iff_getElem]
      intro i j hi hj less
      rw [distinct.idxOf_getElem i hi, distinct.idxOf_getElem j hj]
      omega
    refine List.Perm.eq_of_pairwise ?_ (pairwise_map.mpr ordered) listed namedInOrder
    intro one other inIds _ atMost atLeast
    exact (idxOf_inj (namedInOrder.subset inIds)).mp (le_antisymm atMost atLeast)
  · refine ⟨fun row inOrder => by rw [positions row inOrder]; rfl, ?_⟩
    apply (ordered.and apart).imp_of_mem
    rintro row other inOrder otherInOrder ⟨atMost, different⟩
    refine ⟨_, _, positions row inOrder, positions other otherInOrder, ?_⟩
    have unequal : inputIds.idxOf row.id ≠ inputIds.idxOf other.id := fun same =>
      different ((idxOf_inj (mem row inOrder)).mp same)
    omega

namespace MailboxRow

def number (admits : String × Nat → MailboxRow → Bool) (numbers : List (String × Nat))
    (row : MailboxRow) : MailboxRow :=
  numbers.foldl (fun row numbered => if admits numbered row then row.place numbered.2 else row) row

variable {admits : String × Nat → MailboxRow → Bool}
variable {row : MailboxRow}

theorem number_keeps {motive : MailboxRow → Prop} (begins : motive row)
    (keeps : ∀ row position, motive row → motive (row.place position))
    (numbers : List (String × Nat)) : motive (row.number admits numbers) := by
  induction numbers generalizing row with
  | nil => exact begins
  | cons numbered _ ih =>
    rw [number, foldl_cons]
    apply ih
    split
    · exact keeps row numbered.2 begins
    · exact begins

theorem number_grows
    (sees : ∀ numbered row position, admits numbered (place row position) = admits numbered row)
    {numbers : List (String × Nat)} {numbered : String × Nat} (mem : numbered ∈ numbers)
    (admitted : admits numbered row) : row.version < (row.number admits numbers).version := by
  induction numbers generalizing row with
  | nil => cases mem
  | cons first rest ih =>
    rw [number, foldl_cons]
    rcases mem_cons.mp mem with rfl | inRest
    · rw [if_pos admitted]
      have atLeast : (row.place numbered.2).version ≤
          ((row.place numbered.2).number admits rest).version :=
        number_keeps (motive := fun placed => (row.place numbered.2).version ≤ placed.version)
          (Nat.le_refl _) (fun placed _ less => Nat.le_succ_of_le less) rest
      exact Nat.lt_of_lt_of_le (Nat.lt_succ_self _) atLeast
    · split
      · have later := ih inRest ((sees numbered row first.2).trans admitted)
        exact Nat.lt_of_le_of_lt (Nat.le_succ _) later
      · exact ih inRest admitted

section

variable (only : ∀ numbered row, admits numbered row → row.id = numbered.1)
include only

theorem number_of_not_mem {numbers : List (String × Nat)} (missing : row.id ∉ numbers.map Prod.fst) :
    row.number admits numbers = row := by
  induction numbers with
  | nil => rfl
  | cons numbered _ ih =>
    rw [map_cons, mem_cons, not_or] at missing
    have refused : ¬ admits numbered row := fun admitted =>
      missing.1 (only numbered row admitted)
    rw [number, foldl_cons, if_neg refused]
    exact ih missing.2

theorem number_position (reached : ∀ numbered, row.id = numbered.1 →
      admits numbered row ∨ row.followUpPosition = some numbered.2) {inputIds : List String}
    (distinct : inputIds.Nodup) (named : row.id ∈ inputIds) (start : Nat) :
    (row.number admits (inputIds.zipIdx start)).followUpPosition =
      some (inputIds.idxOf row.id + start) := by
  induction inputIds generalizing start with
  | nil => cases named
  | cons inputId rest ih =>
    obtain ⟨notInRest, distinctRest⟩ := nodup_cons.mp distinct
    rw [zipIdx_cons, number, foldl_cons]
    by_cases same : row.id = inputId
    · have unmoved : ∀ placed : MailboxRow, placed.id = inputId →
          placed.number admits (rest.zipIdx (start + 1)) = placed := by
        intro placed hPlaced
        apply number_of_not_mem only
        rw [zipIdx_map_fst, hPlaced]
        exact notInRest
      have first : (inputId :: rest).idxOf row.id = 0 := by rw [same, idxOf_cons_self]
      rw [first, Nat.zero_add]
      split
      · have settled := unmoved (row.place start) same
        rw [number] at settled
        rw [settled]
        rfl
      · rename_i refused
        have settled := unmoved row same
        rw [number] at settled
        rw [settled]
        exact (reached (inputId, start) same).resolve_left refused
    · have refused : ¬ admits (inputId, start) row := fun admitted =>
        same (only (inputId, start) row admitted)
      have inRest := (mem_cons.mp named).resolve_left same
      rw [if_neg refused, idxOf_cons_ne _ (Ne.symm same)]
      have later := ih distinctRest inRest (start + 1)
      rw [number] at later
      rw [later]
      congr 1
      omega

end

end MailboxRow

section

variable (admits : String × Nat → MailboxRow → Bool)
include admits

theorem numberRows_eq (inputIds : List String) (rows : List MailboxRow) :
    numberRows admits inputIds rows = rows.map (MailboxRow.number admits inputIds.zipIdx) := by
  rw [numberRows]
  generalize inputIds.zipIdx = numbers
  induction numbers generalizing rows with
  | nil => exact (map_id rows).symm
  | cons _ _ ih =>
    rw [foldl_cons, ih, map_map]
    rfl

theorem number_isQueuedFollowUp (numbers : List (String × Nat)) (row : MailboxRow) :
    (row.number admits numbers).isQueuedFollowUp = row.isQueuedFollowUp :=
  MailboxRow.number_keeps (motive := fun placed => placed.isQueuedFollowUp = row.isQueuedFollowUp)
    rfl (fun _ _ same => same) numbers

theorem number_id (numbers : List (String × Nat)) (row : MailboxRow) :
    (row.number admits numbers).id = row.id :=
  MailboxRow.number_keeps (motive := fun placed => placed.id = row.id) rfl (fun _ _ same => same)
    numbers

end

theorem queuedFollowUps_numberRows {admits : String × Nat → MailboxRow → Bool}
    (only : ∀ numbered row, admits numbered row → row.id = numbered.1)
    (reached : ∀ numbered row, row.isQueuedFollowUp → row.id = numbered.1 →
      admits numbered row ∨ row.followUpPosition = some numbered.2) (distinct : inputIds.Nodup)
    (named : inputIds.Perm ((rows.filter MailboxRow.isQueuedFollowUp).map MailboxRow.id)) :
    queuedFollowUpIds (numberRows admits inputIds rows) = inputIds
      ∧ InPlace (queuedFollowUps (numberRows admits inputIds rows)) := by
  rw [numberRows_eq]
  apply queuedFollowUps_placed distinct
  · have sameFollowUps : MailboxRow.isQueuedFollowUp ∘ MailboxRow.number admits inputIds.zipIdx =
        MailboxRow.isQueuedFollowUp := by
      funext row
      exact number_isQueuedFollowUp admits inputIds.zipIdx row
    have sameIds : MailboxRow.id ∘ MailboxRow.number admits inputIds.zipIdx = MailboxRow.id := by
      funext row
      exact number_id admits inputIds.zipIdx row
    rw [filter_map, map_map, sameFollowUps, sameIds]
    exact named
  · intro placed mem followUp
    obtain ⟨row, inRows, rfl⟩ := mem_map.mp mem
    rw [number_isQueuedFollowUp] at followUp
    have isNamed : row.id ∈ inputIds :=
      named.symm.subset (mem_map_of_mem (mem_filter.mpr ⟨inRows, followUp⟩))
    rw [number_id]
    exact row.number_position only (fun numbered => reached numbered row followUp) distinct isNamed 0

theorem queuedFollowUps_renumber (distinct : (rows.map MailboxRow.id).Nodup) :
    queuedFollowUpIds (renumberFollowUps rows) = queuedFollowUpIds rows
      ∧ InPlace (queuedFollowUps (renumberFollowUps rows)) := by
  have named : (queuedFollowUpIds rows).Perm
      ((rows.filter MailboxRow.isQueuedFollowUp).map MailboxRow.id) :=
    (queuedFollowUps_perm rows).map _
  apply queuedFollowUps_numberRows ?_ ?_ ?_ named
  · intro numbered row admitted
    rw [Bool.and_eq_true, beq_iff_eq] at admitted
    exact admitted.1
  · intro numbered row _ same
    by_cases placed : row.followUpPosition = some numbered.2
    · exact .inr placed
    · exact .inl (by simp [same, placed])
  · exact named.nodup_iff.mpr (distinct.sublist (filter_sublist.map _))

theorem queuedFollowUps_place (distinct : (rows.map MailboxRow.id).Nodup)
    (same : inputIds.Perm (queuedFollowUpIds rows)) :
    queuedFollowUpIds (placeFollowUps inputIds rows) = inputIds
      ∧ InPlace (queuedFollowUps (placeFollowUps inputIds rows)) := by
  have named := same.trans ((queuedFollowUps_perm rows).map MailboxRow.id)
  apply queuedFollowUps_numberRows ?_ ?_ ?_ named
  · intro numbered row admitted
    simp only [ChildSession.isQueuedFollowUp, Bool.and_eq_true, beq_iff_eq] at admitted
    exact admitted.1.1
  · intro numbered row followUp sameId
    rw [MailboxRow.isQueuedFollowUp_iff] at followUp
    exact .inl (by simp [ChildSession.isQueuedFollowUp, sameId, followUp])
  · exact named.nodup_iff.mpr (distinct.sublist (filter_sublist.map _))

end PiRelay.Store
