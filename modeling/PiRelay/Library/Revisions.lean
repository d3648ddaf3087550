import Mathlib.Data.List.Basic

/-! Optimistic edits: a state has a revision that only grows, and a call may ask for the
revision its caller has seen. A call that is accepted moves the revision on, so no other
one that asks for the same revision is accepted after it. -/
namespace Library

open List

universe u v

variable {State : Type u} {Call : Type v}

/-- A program whose calls may ask for a revision; `accepted` is the revision that a call
asks for, where the call is accepted. -/
structure Revised (State : Type u) (Call : Type v) where
  step : State → Call → Option State
  revision : State → Nat
  accepted : State → Call → Option Int

namespace Revised

/-- What a call has to do with the revision. -/
structure Lawful (program : Revised State Call) : Prop where
  grows : ∀ state call after, program.step state call = some after →
    program.revision state ≤ program.revision after
  advances : ∀ state call after expected, program.step state call = some after →
    program.accepted state call = some expected →
    expected = program.revision state ∧ program.revision state < program.revision after

variable {program : Revised State Call}

/-- The revisions that calls were accepted with, one call after the other. -/
def acceptedAlong (program : Revised State Call) : State → List Call → List Int
  | _, [] => []
  | state, call :: rest =>
    match program.step state call with
    | none => []
    | some after => (program.accepted state call).toList ++ program.acceptedAlong after rest

section

variable (lawful : program.Lawful)
include lawful

theorem Lawful.atLeast (state : State) (calls : List Call) :
    ∀ expected ∈ program.acceptedAlong state calls, (program.revision state : Int) ≤ expected := by
  induction calls generalizing state with
  | nil => exact fun _ mem => absurd mem not_mem_nil
  | cons call _ ih =>
    intro expected mem
    rw [acceptedAlong] at mem
    split at mem
    · cases mem
    · rename_i after stepped
      rcases mem_append.mp mem with first | later
      · have asked := Option.mem_toList.mp first
        have same := (lawful.advances state call after expected stepped asked).1
        omega
      · have grows := lawful.grows state call after stepped
        have least := ih after expected later
        omega

/-- No revision is accepted twice, and later ones are greater. -/
theorem Lawful.ascends (state : State) (calls : List Call) :
    (program.acceptedAlong state calls).Pairwise (· < ·) := by
  induction calls generalizing state with
  | nil => exact .nil
  | cons call rest ih =>
    rw [acceptedAlong]
    split
    · exact .nil
    · rename_i after stepped
      rw [pairwise_append]
      refine ⟨?_, ih after, ?_⟩
      · cases program.accepted state call <;> simp
      · intro expected first other later
        have asked := Option.mem_toList.mp first
        obtain ⟨_, _⟩ := lawful.advances state call after expected stepped asked
        have least := lawful.atLeast after rest other later
        omega

theorem Lawful.once (state : State) (calls : List Call) :
    (program.acceptedAlong state calls).Nodup :=
  (lawful.ascends state calls).imp fun {_ _} less => Int.ne_of_lt less

end

end Revised

end Library
