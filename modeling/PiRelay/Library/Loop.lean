import Mathlib.Data.List.Basic
import Mathlib.Logic.Function.Iterate

/-! Loops that decide in their body whether to go round again. A measure bounds
the number of iterations, so a run is a total function that still unfolds to one
iteration after another. The rules below are the only way later proofs look
inside a run. -/
namespace Library

universe u v

/-- A loop body returns the next state and whether to iterate again; every
iteration that is followed by another one lowers the measure. -/
structure Loop (State : Type u) where
  body : State → State × Bool
  measure : State → Nat
  decreases : ∀ state, (body state).2 = true → measure (body state).1 < measure state

namespace Loop

variable {State : Type u} {Target : Type v}

def runFor (body : State → State × Bool) : Nat → State → State
  | 0, state => state
  | fuel + 1, state => if (body state).2 then runFor body fuel (body state).1 else (body state).1

def run (loop : Loop State) (state : State) : State :=
  runFor loop.body (loop.measure state + 1) state

variable {state : State}
variable (loop : Loop State)

/-- Fuel beyond the measure is never spent. -/
theorem runFor_of_lt {fuel : Nat} (enough : loop.measure state < fuel) :
    runFor loop.body fuel state = loop.run state := by
  unfold run
  induction fuel using Nat.strongRecOn generalizing state with
  | _ fuel ih =>
    obtain ⟨rest, rfl⟩ : ∃ rest, fuel = rest + 1 := ⟨fuel - 1, by omega⟩
    rw [runFor, runFor]
    by_cases again : (loop.body state).2
    · have lower := loop.decreases state again
      rw [ih rest (by omega) (by omega)]
      by_cases same : loop.measure state = rest
      · rw [same, ih rest (by omega) (by omega)]
      · rw [ih (loop.measure state) (by omega) lower]
    · simp [again]

theorem run_eq (state : State) :
    loop.run state =
      if (loop.body state).2 then loop.run (loop.body state).1 else (loop.body state).1 := by
  rw [run, runFor]
  by_cases again : (loop.body state).2
  · simp only [again, ↓reduceIte]
    exact runFor_of_lt loop (loop.decreases state again)
  · simp [again]

theorem run_of_again (again : (loop.body state).2) :
    loop.run state = loop.run (loop.body state).1 := by
  rw [run_eq, if_pos again]

theorem run_of_stop (stop : (loop.body state).2 = false) :
    loop.run state = (loop.body state).1 := by
  rw [run_eq, if_neg (by simp [stop])]

/-- A loop whose measure falls is its body, iterated until it stops. -/
theorem run_terminates (state : State) :
    ∃ count, count ≤ loop.measure state ∧
      (∀ earlier < count, (loop.body ((fun now => (loop.body now).1)^[earlier] state)).2) ∧
      (loop.body ((fun now => (loop.body now).1)^[count] state)).2 = false ∧
      loop.run state = (loop.body ((fun now => (loop.body now).1)^[count] state)).1 := by
  induction h : loop.measure state using Nat.strongRecOn generalizing state with
  | _ bound ih =>
    cases flag : (loop.body state).2 with
    | false =>
      refine ⟨0, Nat.zero_le _, ?_, flag, run_of_stop loop flag⟩
      intro earlier before
      omega
    | true =>
      have lower := loop.decreases state flag
      obtain ⟨count, _, goesOn, stops, result⟩ := ih _ (by omega) (loop.body state).1 rfl
      refine ⟨count + 1, by omega, ?_, stops, (run_of_again loop flag).trans result⟩
      intro earlier before
      cases earlier with
      | zero => exact flag
      | succ earlier => exact goesOn earlier (by omega)

/-- Induction over the iterations of one run. -/
theorem run_induction {motive : State → State → Prop}
    (stop : ∀ state, (loop.body state).2 = false → motive state (loop.body state).1)
    (again : ∀ state final, (loop.body state).2 →
      motive (loop.body state).1 final → motive state final) (state : State) :
    motive state (loop.run state) := by
  induction h : loop.measure state using Nat.strongRecOn generalizing state with
  | _ bound ih =>
    cases flag : (loop.body state).2 with
    | false =>
      rw [run_of_stop loop flag]
      exact stop state flag
    | true =>
      rw [run_of_again loop flag]
      have lower := loop.decreases state flag
      exact again state _ flag (ih _ (by omega) _ rfl)

/-- The rule of invariants: what every iteration keeps, a run keeps. -/
theorem run_invariant {motive : State → Prop}
    (keeps : ∀ state, motive state → motive (loop.body state).1) (initially : motive state) :
    motive (loop.run state) := by
  revert initially
  refine loop.run_induction (motive := fun state final => motive state → motive final) ?_ ?_ state
  · intro state _ holds
    exact keeps state holds
  · intro state final _ rest holds
    exact rest (keeps state holds)

/-- A projection that commutes with the body commutes with the loop. -/
theorem run_map (target : Loop Target) (project : State → Target)
    (body : ∀ state, target.body (project state) =
      (project (loop.body state).1, (loop.body state).2)) (state : State) :
    project (loop.run state) = target.run (project state) := by
  refine loop.run_induction
    (motive := fun state final => project final = target.run (project state)) ?_ ?_ state
  · intro state stop
    rw [target.run_of_stop (by rw [body state]; exact stop), body state]
  · intro state final again rest
    rw [target.run_of_again (by rw [body state]; exact again), body state]
    exact rest

end Loop

end Library
