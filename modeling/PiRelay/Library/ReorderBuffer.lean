import Mathlib.Data.List.TakeWhile

/-! Answers that arrive in any order and are released in slot order. A slot keeps
its first answer; what may be released is the longest answered prefix. The
library says nothing about who answers or how a slot is found. -/
namespace Library

open List Option

universe u v

theorem map_modify {α : Type u} {β : Type v} (values : List α) (position : Nat) (change : α → α)
    (view : α → β) (after : β → β) (hView : ∀ value, view (change value) = after (view value)) :
    (values.modify position change).map view = (values.map view).modify position after := by
  induction values generalizing position with
  | nil => simp
  | cons _ _ ih =>
    cases position with
    | zero => simp [hView]
    | succ => simp [ih]

namespace ReorderBuffer

variable {β : Type u}

section

variable (slots : List (Option β))

/-- Give a slot its answer, unless it has one. -/
def put (answer : Nat × β) : List (Option β) :=
  slots.modify answer.1 (·.or (some answer.2))

def putAll (answers : List (Nat × β)) : List (Option β) :=
  answers.foldl put slots

/-- The answers that may be released: those with nothing missing before them. -/
def released : List β :=
  (slots.takeWhile Option.isSome).filterMap id

/-- How many slots have been released. -/
def count : Nat := (slots.takeWhile Option.isSome).length

def Complete : Prop := ∀ slot ∈ slots, slot.isSome = true

end

section

variable (slots : List (Option β))
include slots

@[simp] theorem length_put (answer : Nat × β) : (put slots answer).length = slots.length := by
  simp [put]

@[simp] theorem length_putAll (answers : List (Nat × β)) :
    (putAll slots answers).length = slots.length := by
  induction answers generalizing slots with
  | nil => rfl
  | cons _ _ ih => rw [putAll, foldl_cons, ← putAll, ih, length_put]

theorem putAll_append (first second : List (Nat × β)) :
    putAll slots (first ++ second) = putAll (putAll slots first) second := by
  simp [putAll]

theorem getElem?_putAll (answers : List (Nat × β)) (position : Nat) :
    (putAll slots answers)[position]? =
      slots[position]?.map
        (·.or (answers.findSome? fun answer =>
          if answer.1 = position then some answer.2 else none)) := by
  induction answers generalizing slots with
  | nil => cases hSlot : slots[position]? <;> simp [putAll, hSlot]
  | cons answer _ ih =>
    rw [putAll, foldl_cons, ← putAll, ih, put, getElem?_modify]
    by_cases hit : answer.1 = position
    · cases slots[position]? with
      | none => simp
      | some slot => cases slot <;> simp [hit]
    · cases slots[position]? with
      | none => simp
      | some => simp [hit]

theorem count_le : count slots ≤ slots.length :=
  ( takeWhile_prefix _).length_le

theorem length_released : (released slots).length = count slots := by
  have full : ∀ slot ∈ slots.takeWhile Option.isSome, slot.isSome := all_eq_true.mp all_takeWhile
  rw [released, count]
  generalize slots.takeWhile Option.isSome = front at full
  induction front with
  | nil => rfl
  | cons slot rest ih =>
    obtain ⟨answer, rfl⟩ := isSome_iff_exists.mp (full slot (.head _))
    have others := ih (forall_mem_cons.mp full).2
    have first : (some answer :: rest).filterMap id = answer :: rest.filterMap id :=
      filterMap_cons_some rfl
    rw [first, length_cons, length_cons, others]

theorem complete_iff : Complete slots ↔ count slots = slots.length := by
  constructor
  · intro complete
    rw [count, takeWhile_eq_self_iff.mpr complete]
  · intro full
    have whole : slots.takeWhile Option.isSome = slots := ( takeWhile_prefix _).eq_of_length full
    exact takeWhile_eq_self_iff.mp whole

end

variable {slots : List (Option β)} {position : Nat} {answer : Nat × β}

theorem not_complete_of_none (hNone : slots[position]? = some none) : ¬ Complete slots := by
  intro complete
  have := complete none (mem_of_getElem? hNone)
  cases this

theorem isSome_of_lt_count (before : position < count slots) :
    ∃ answer, slots[position]? = some (some answer) := by
  have front : slots.takeWhile Option.isSome <+: slots := takeWhile_prefix _
  have inFront := getElem_mem before
  have answered := all_eq_true.mp all_takeWhile _ inFront
  obtain ⟨answer, hAnswer⟩ := isSome_iff_exists.mp answered
  refine ⟨answer, ?_⟩
  rw [← hAnswer, front.getElem before]
  exact getElem?_eq_getElem _

theorem takeWhile_split (answered : ∀ slot ∈ slots.take position, slot.isSome) :
    slots.takeWhile Option.isSome =
      slots.take position ++ (slots.drop position).takeWhile Option.isSome := by
  calc slots.takeWhile Option.isSome
      = (slots.take position ++ slots.drop position).takeWhile Option.isSome := by
        rw [take_append_drop]
    _ = slots.take position ++ (slots.drop position).takeWhile Option.isSome :=
        takeWhile_append_of_pos answered

theorem take_count (slots : List (Option β)) :
    slots.take (count slots) = slots.takeWhile Option.isSome :=
  (prefix_iff_eq_take.mp ( takeWhile_prefix _)).symm

section

variable (behind : count slots ≤ answer.1)
include behind

theorem put_split :
    (put slots answer).takeWhile Option.isSome =
      slots.takeWhile Option.isSome
        ++ ((put slots answer).drop (count slots)).takeWhile Option.isSome := by
  have front : (put slots answer).take (count slots) = slots.takeWhile Option.isSome := by
    rw [put, take_modify, modify_eq_self, take_count]
    exact (length_take_le _ _).trans behind
  rw [← front]
  apply takeWhile_split
  rw [front]
  exact all_eq_true.mp all_takeWhile

theorem released_put :
    released (put slots answer) =
      released slots
        ++ (((put slots answer).drop (count slots)).takeWhile Option.isSome).filterMap id := by
  rw [released, put_split behind, filterMap_append, released]

theorem count_put :
    count (put slots answer) =
      count slots + (((put slots answer).drop (count slots)).takeWhile Option.isSome).length := by
  rw [count, put_split behind, length_append, ← count]

end

theorem put_of_answered {old : β} (answered : slots[answer.1]? = some (some old)) :
    put slots answer = slots := by
  apply ext_getElem?
  intro position
  rw [put, getElem?_modify]
  by_cases hit : answer.1 = position
  · subst hit
    simp [answered]
  · cases slots[position]? with
    | none => simp
    | some => simp [hit]

/-- A complete buffer takes no more answers. -/
theorem Complete.putAll_eq (complete : Complete slots) (answers : List (Nat × β)) :
    putAll slots answers = slots := by
  induction answers with
  | nil => rfl
  | cons answer _ ih =>
    have same : put slots answer = slots := by
      cases hSlot : slots[answer.1]? with
      | none => exact modify_eq_self (getElem?_eq_none_iff.mp hSlot)
      | some slot =>
        obtain ⟨_, rfl⟩ := isSome_iff_exists.mp (complete slot (mem_of_getElem? hSlot))
        exact put_of_answered hSlot
    rw [putAll, foldl_cons, same, ← putAll, ih]

theorem put_of_vacant (vacant : slots[answer.1]? = some none) :
    put slots answer = slots.modify answer.1 (fun _ => some answer.2) := by
  apply ext_getElem?
  intro position
  rw [put, getElem?_modify, getElem?_modify]
  by_cases hit : answer.1 = position
  · subst hit
    simp [vacant]
  · simp [hit]

theorem drop_length_takeWhile {α : Type u} (test : α → Bool) (values : List α) :
    values.drop (values.takeWhile test).length = values.dropWhile test := by
  induction values with
  | nil => rfl
  | cons value _ ih =>
    cases hTest : test value with
    | true => simp [hTest, ih]
    | false => simp [hTest]

theorem released_of_complete (complete : Complete slots) : released slots = slots.filterMap id := by
  rw [released, takeWhile_eq_self_iff.mpr complete]

end ReorderBuffer

end Library
