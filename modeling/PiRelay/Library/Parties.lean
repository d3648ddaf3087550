import Mathlib.Data.List.Basic

/-! Parties of a system that take steps one at a time. They stand in a list, and a step
replaces one of them or adds a new one. -/
namespace Library

open List

universe u v

variable {Party : Type u} {Key : Type v} {parties : List Party} {id : Nat}
  {party next other : Party}

theorem getElem?_set_cases {index : Nat} (isOther : (parties.set id next)[index]? = some other) :
    index = id ∧ other = next ∨ index ≠ id ∧ parties[index]? = some other := by
  rw [getElem?_set] at isOther
  split at isOther
  · rename_i isId
    split at isOther
    · exact .inl ⟨isId.symm, (Option.some.inj isOther).symm⟩
    · cases isOther
  · rename_i different
    exact .inr ⟨Ne.symm different, isOther⟩

theorem getElem?_concat_cases {index : Nat} (isOther : (parties ++ [party])[index]? = some other) :
    parties[index]? = some other ∨ index = parties.length ∧ other = party := by
  rw [getElem?_append] at isOther
  split at isOther
  · exact .inl isOther
  · have inBounds := (List.getElem?_eq_some_iff.mp isOther).1
    rw [length_singleton] at inBounds
    exact .inr ⟨by omega, mem_singleton.mp (mem_of_getElem? isOther)⟩

theorem mem_concat : other ∈ parties ++ [party] ↔ other ∈ parties ∨ other = party := by
  rw [mem_append, mem_singleton]

theorem mem_set_cases (mem : other ∈ parties.set id next) :
    other = next ∨ ∃ index : Nat, index ≠ id ∧ parties[index]? = some other := by
  obtain ⟨index, isOther⟩ := mem_iff_getElem?.mp mem
  exact (getElem?_set_cases isOther).imp And.right fun found => ⟨index, found⟩

theorem mem_set_self (found : parties[id]? = some party) : next ∈ parties.set id next :=
  mem_set (List.getElem?_eq_some_iff.mp found).1 next

theorem mem_set_of_mem (found : parties[id]? = some party) (mem : other ∈ parties) :
    other ∈ parties.set id next ∨ other = party := by
  obtain ⟨index, isOther⟩ := mem_iff_getElem?.mp mem
  rcases eq_or_ne index id with rfl | different
  · exact .inr (Option.some.inj (isOther.symm.trans found))
  · refine .inl (mem_of_getElem? (i := index) ?_)
    rw [getElem?_set_ne (Ne.symm different)]
    exact isOther

/-- Among the parties that hold something, no two have one key. -/
def SoleKeys (holds : Party → Bool) (key : Party → Key) (parties : List Party) : Prop :=
  ∀ (id other : Nat) (one two : Party), parties[id]? = some one → parties[other]? = some two →
    holds one = true → holds two = true → key one = key two → id = other

namespace SoleKeys

variable {holds : Party → Bool} {key : Party → Key}

theorem nil : SoleKeys holds key [] := by
  intro id other one two isOne
  simp at isOne

section

variable (sole : SoleKeys holds key parties)
include sole

theorem append
    (new : holds party → ∀ other ∈ parties, holds other → key other ≠ key party) :
    SoleKeys holds key (parties ++ [party]) := by
  intro id other one two isOne isTwo oneHolds twoHolds same
  rcases getElem?_concat_cases isOne with wasOne | ⟨rfl, rfl⟩
  · rcases getElem?_concat_cases isTwo with wasTwo | ⟨rfl, rfl⟩
    · exact sole id other one two wasOne wasTwo oneHolds twoHolds same
    · exact absurd same (new twoHolds one (mem_of_getElem? wasOne) oneHolds)
  · rcases getElem?_concat_cases isTwo with wasTwo | ⟨rfl, rfl⟩
    · exact absurd same.symm (new oneHolds two (mem_of_getElem? wasTwo) twoHolds)
    · rfl

theorem set (found : parties[id]? = some party)
    (step : holds next → holds party ∧ key next = key party ∨
      ∀ (index : Nat) (other : Party), index ≠ id → parties[index]? = some other →
        holds other → key other ≠ key next) : SoleKeys holds key (parties.set id next) := by
  have apart : ∀ (index : Nat) (other : Party), index ≠ id → parties[index]? = some other →
      holds other → holds next → key other ≠ key next := by
    intro index other different isOther otherHolds nextHolds
    rcases step nextHolds with ⟨holdsAlready, sameKey⟩ | apart
    · rw [sameKey]
      exact fun same => different
        (sole index id other party isOther found otherHolds holdsAlready same)
    · exact apart index other different isOther otherHolds
  intro one other first second isFirst isSecond firstHolds secondHolds same
  rcases getElem?_set_cases isFirst with ⟨rfl, rfl⟩ | ⟨oneDiffers, wasFirst⟩
  · rcases getElem?_set_cases isSecond with ⟨rfl, rfl⟩ | ⟨otherDiffers, wasSecond⟩
    · rfl
    · exact absurd same.symm (apart other second otherDiffers wasSecond secondHolds firstHolds)
  · rcases getElem?_set_cases isSecond with ⟨rfl, rfl⟩ | ⟨-, wasSecond⟩
    · exact absurd same (apart one first oneDiffers wasFirst firstHolds secondHolds)
    · exact sole one other first second wasFirst wasSecond firstHolds secondHolds same

theorem set_kept (found : parties[id]? = some party) (kept : holds next → holds party)
    (sameKey : key next = key party) : SoleKeys holds key (parties.set id next) :=
  sole.set found fun nextHolds => .inl ⟨kept nextHolds, sameKey⟩

end

end SoleKeys

end Library
