import Mathlib.Data.List.Basic

/-! Taking the first of some values under an order given by a test, as a query with
an order and a limit of one does. -/
namespace Library

universe u

variable {Value : Type u}

/-- The value that comes before the others; among values that the test does not
tell apart, the one listed first. -/
def earliest (before : Value → Value → Bool) : List Value → Option Value
  | [] => none
  | value :: rest =>
    match earliest before rest with
    | none => some value
    | some other => if before other value then some other else some value

theorem earliest_mem {before : Value → Value → Bool} {values : List Value} {first : Value}
    (found : earliest before values = some first) : first ∈ values := by
  induction values generalizing first with
  | nil => cases found
  | cons _ _ ih =>
    rw [earliest] at found
    split at found
    · rw [← Option.some.inj found]
      exact (.head _)
    · rename_i other hOther
      split at found
      · rw [← Option.some.inj found]
        exact .tail _ (ih hOther)
      · rw [← Option.some.inj found]
        exact (.head _)

theorem earliest_eq_none_iff {before : Value → Value → Bool} {values : List Value} :
    earliest before values = none ↔ values = [] := by
  cases values with
  | nil => simp [earliest]
  | cons _ rest =>
    rw [earliest]
    cases earliest before rest with
    | none => simp
    | some =>
      simp only [reduceCtorEq, iff_false]
      split <;> nofun

end Library
