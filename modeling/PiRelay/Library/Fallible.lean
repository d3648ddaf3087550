/-! Computations that give a value or an error. -/
namespace Library

universe u v w

variable {Error : Type u} {α : Type v} {β : Type v}

theorem bind_eq_ok {result : Except Error α} {next : α → Except Error β} {value : β} :
    (result >>= next) = .ok value ↔ ∃ first, result = .ok first ∧ next first = .ok value := by
  cases result with
  | error =>
    constructor
    · nofun
    · rintro ⟨first, isOk, -⟩
      cases isOk
  | ok first =>
    constructor
    · intro goesOn
      exact ⟨first, rfl, goesOn⟩
    · rintro ⟨_, isOk, goesOn⟩
      cases isOk
      exact goesOn

theorem forM_eq_ok {check : α → Except Error PUnit} {items : List α} :
    items.forM check = .ok ⟨⟩ ↔ ∀ item ∈ items, check item = .ok ⟨⟩ := by
  induction items with
  | nil => exact iff_of_true rfl nofun
  | cons item _ ih =>
    rw [List.forM, bind_eq_ok, List.forall_mem_cons, ← ih]
    constructor
    · rintro ⟨_, first, rest⟩
      exact ⟨first, rest⟩
    · rintro ⟨first, rest⟩
      exact ⟨_, first, rest⟩

theorem toOption_congr {one other : Except Error α}
    (same : ∀ value, one = .ok value ↔ other = .ok value) : one.toOption = other.toOption := by
  cases isOther : other with
  | ok value => rw [(same value).mpr isOther]
  | error error =>
    cases isOne : one with
    | ok value => cases isOther.symm.trans ((same value).mp isOne)
    | error => rfl

end Library
