import Mathlib.Data.List.Pairwise
import Mathlib.Order.Lattice

/-! Receivers that take an item only above a mark, which is the key of the last item they
took. Nothing is taken twice, and in order; an item that the mark has passed is never taken,
so that what is offered in order is all taken. -/
namespace Library

open List

universe u v

structure Receiver (Mark : Type u) (Item : Type v) where
  mark : Mark
  taken : List Item

namespace Receiver

variable {Mark : Type u} {Item : Type v} [LinearOrder Mark]

def offer (key : Item → Mark) (receiver : Receiver Mark Item) (item : Item) : Receiver Mark Item :=
  if key item ≤ receiver.mark then receiver
  else { mark := key item, taken := receiver.taken ++ [item] }

def offerAll (key : Item → Mark) (receiver : Receiver Mark Item) (items : List Item) :
    Receiver Mark Item :=
  items.foldl (offer key) receiver

/-- The items were taken in order, and the mark is not below them. -/
structure Ordered (key : Item → Mark) (receiver : Receiver Mark Item) : Prop where
  increasing : receiver.taken.Pairwise fun one other => key one < key other
  below : ∀ item ∈ receiver.taken, key item ≤ receiver.mark

variable {key : Item → Mark} {receiver : Receiver Mark Item} {item passed : Item}

theorem offer_of_le (old : key item ≤ receiver.mark) : receiver.offer key item = receiver :=
  if_pos old

theorem offer_of_lt (new : receiver.mark < key item) :
    receiver.offer key item = { mark := key item, taken := receiver.taken ++ [item] } :=
  if_neg (not_le.mpr new)

theorem le_offer : receiver.mark ≤ (receiver.offer key item).mark := by
  rcases le_or_gt (key item) receiver.mark with old | new
  · rw [offer_of_le old]
  · rw [offer_of_lt new]
    exact new.le

theorem mem_offer_iff {other : Item} :
    other ∈ (receiver.offer key item).taken ↔
      other ∈ receiver.taken ∨ (other = item ∧ receiver.mark < key item) := by
  rcases le_or_gt (key item) receiver.mark with old | new
  · simp [offer_of_le old, not_lt.mpr old]
  · simp [offer_of_lt new, new]

/-- Offering an item keeps what was taken in order. -/
theorem Ordered.offer (ordered : receiver.Ordered key) : (receiver.offer key item).Ordered key := by
  rcases le_or_gt (key item) receiver.mark with old | new
  · rwa [offer_of_le old]
  · rw [offer_of_lt new]
    constructor
    · rw [pairwise_append]
      refine ⟨ordered.increasing, pairwise_singleton _ _, fun earlier hEarlier => ?_⟩
      intro last hLast
      rw [mem_singleton.mp hLast]
      exact (ordered.below earlier hEarlier).trans_lt new
    · intro each hEach
      rcases mem_append.mp hEach with hOld | hNew
      · exact (ordered.below each hOld).trans new.le
      · rw [mem_singleton.mp hNew]

@[simp] theorem offerAll_nil : receiver.offerAll key [] = receiver := rfl

variable {items : List Item}

theorem offerAll_cons :
    receiver.offerAll key (item :: items) = (receiver.offer key item).offerAll key items := rfl

theorem le_offerAll (items : List Item) : receiver.mark ≤ (receiver.offerAll key items).mark := by
  induction items generalizing receiver with
  | nil => exact le_rfl
  | cons _ _ ih => exact le_offer.trans ih

theorem Ordered.offerAll (ordered : receiver.Ordered key) (items : List Item) :
    (receiver.offerAll key items).Ordered key := by
  induction items generalizing receiver with
  | nil => exact ordered
  | cons _ _ ih => exact ih ordered.offer

theorem mem_offerAll (before : item ∈ receiver.taken) (items : List Item) :
    item ∈ (receiver.offerAll key items).taken := by
  induction items generalizing receiver with
  | nil => exact before
  | cons _ _ ih => exact ih (mem_offer_iff.mpr (.inl before))

theorem offerAll_taken (increasing : items.Pairwise fun one other => key one < key other)
    (above : ∀ item ∈ items, receiver.mark < key item) :
    (receiver.offerAll key items).taken = receiver.taken ++ items := by
  induction items generalizing receiver with
  | nil => exact (append_nil _).symm
  | cons item _ ih =>
    rw [pairwise_cons] at increasing
    have first := offer_of_lt (above item (.head _))
    rw [offerAll_cons, first, ih increasing.2 increasing.1, append_assoc]
    rfl

theorem offerAll_mark (key : Item → Mark) (receiver : Receiver Mark Item) (items : List Item) :
    (receiver.offerAll key items).mark = receiver.mark ∨
      ∃ item ∈ items, (receiver.offerAll key items).mark = key item := by
  induction items generalizing receiver with
  | nil => exact .inl rfl
  | cons item _ ih =>
    rw [offerAll_cons]
    rcases ih (receiver.offer key item) with same | ⟨last, mem, at_last⟩
    · rw [same]
      rcases le_or_gt (key item) receiver.mark with old | new
      · rw [offer_of_le old]
        exact .inl rfl
      · rw [offer_of_lt new]
        exact .inr ⟨item, .head _, rfl⟩
    · exact .inr ⟨last, mem_cons_of_mem item mem, at_last⟩

theorem key_le_offerAll (mem : item ∈ items) : key item ≤ (receiver.offerAll key items).mark := by
  induction items generalizing receiver with
  | nil => cases mem
  | cons _ rest ih =>
    rcases mem_cons.mp mem with rfl | later
    · refine le_trans ?_ (le_offerAll rest)
      rcases le_or_gt (key item) receiver.mark with old | new
      · exact old.trans le_offer
      · rw [offer_of_lt new]
    · exact ih later

end Receiver

end Library
