import Mathlib.Data.List.Basic

/-! Recursions that list the states they come through. The listing is bounded by fuel; where
the recursion ends within it, it is the listing of the unbounded recursion. -/
namespace Library

universe u

variable {State : Type u} {next : State → Option State} {state : State} {states : List State}

/-- The states of a recursion, from the first one on. -/
def unfold (next : State → Option State) : Nat → State → List State
  | 0, state => [state]
  | fuel + 1, state =>
    state ::
      match next state with
      | none => []
      | some later => unfold next fuel later

/-- The recursion from a state ends, and these are the states it comes through. -/
inductive Unfolds (next : State → Option State) : State → List State → Prop where
  | stop {state : State} (ends : next state = none) : Unfolds next state [state]
  | step {state later : State} {states : List State} (goesOn : next state = some later)
      (rest : Unfolds next later states) : Unfolds next state (state :: states)

theorem unfold_of_none (ends : next state = none) (fuel : Nat) : unfold next fuel state = [state] := by
  cases fuel with
  | zero => rfl
  | succ => rw [unfold, ends]

theorem unfold_of_some {later : State} (goesOn : next state = some later) (fuel : Nat) :
    unfold next (fuel + 1) state = state :: unfold next fuel later := by
  rw [unfold, goesOn]

namespace Unfolds

/-- With fuel for every state the recursion gives all of them. -/
theorem unfold_eq (unfolds : Unfolds next state states) {fuel : Nat}
    (enough : states.length ≤ fuel + 1) : unfold next fuel state = states := by
  induction unfolds generalizing fuel with
  | stop ends => exact unfold_of_none ends fuel
  | @step state later states goesOn rest ih =>
    cases rest with
    | stop ends =>
      obtain ⟨less, rfl⟩ : ∃ less, fuel = less + 1 := ⟨fuel - 1, by simp at enough; omega⟩
      rw [unfold_of_some goesOn, unfold_of_none ends]
    | step =>
      obtain ⟨less, rfl⟩ : ∃ less, fuel = less + 1 := ⟨fuel - 1, by simp at enough; omega⟩
      rw [unfold_of_some goesOn, ih (by simp at enough ⊢; omega)]

theorem last (unfolds : Unfolds next state states) :
    ∃ final, states.getLast? = some final ∧ next final = none := by
  induction unfolds with
  | stop ends => exact ⟨_, rfl, ends⟩
  | @step state later states goesOn rest ih =>
    obtain ⟨final, isLast, ends⟩ := ih
    refine ⟨final, ?_, ends⟩
    rw [List.getLast?_cons, isLast]
    rfl

/-- Each round lowers a measure, so that much fuel is enough. -/
theorem of_measure (measure : State → Nat) (Keeps : State → Prop)
    (keeps : ∀ state later, Keeps state → next state = some later → Keeps later)
    (lowers : ∀ state later, Keeps state → next state = some later →
      measure later < measure state) {fuel : Nat} (initially : Keeps state)
    (enough : measure state ≤ fuel) : Unfolds next state (unfold next fuel state) := by
  induction fuel generalizing state with
  | zero =>
    cases goesOn : next state with
    | none => exact .stop goesOn
    | some later => exact absurd (lowers state later initially goesOn) (by omega)
  | succ _ ih =>
    rw [unfold]
    cases goesOn : next state with
    | none => exact .stop goesOn
    | some later =>
      have lower := lowers state later initially goesOn
      exact .step goesOn (ih (keeps state later initially goesOn) (by omega))

end Unfolds

/-- The rule of invariants: what each round keeps holds of every state that is listed. -/
theorem unfold_invariant {Keeps : State → Prop}
    (keeps : ∀ state later, Keeps state → next state = some later → Keeps later) (fuel : Nat)
    (initially : Keeps state) : ∀ listed ∈ unfold next fuel state, Keeps listed := by
  induction fuel generalizing state with
  | zero => simpa [unfold] using initially
  | succ _ ih =>
    rw [unfold]
    cases goesOn : next state with
    | none => simpa using initially
    | some later =>
      intro listed mem
      rcases List.mem_cons.mp mem with rfl | isLater
      · exact initially
      · exact ih (keeps state later initially goesOn) listed isLater

end Library
