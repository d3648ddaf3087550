import Mathlib.Data.List.Perm.Basic
import PiRelay.Library.Machine

/-! Processes that share a state and lock resources for themselves. A process moves on
only if no other process holds what it then holds. To prove something of every
interleaving, one gives an invariant of the shared state and an assertion for each
point of a process; a move has to establish its own assertion, and to leave those of
the processes that hold none of its resources. -/
namespace Library

open List

universe u v w x

/-- What processes do: where they begin, what they hold at each point, and the moves
of one of them, by the choices it has. A process that ends holds nothing. -/
structure Program (Shared : Type u) (Process : Type v) (Choice : Type w) (Resource : Type x) where
  begins : Shared → Process → Bool
  holds : Process → List Resource
  move : Shared → Process → Choice → Option (Shared × Option Process)

/-- The shared state and the processes under way. -/
structure Interleaving (Shared : Type u) (Process : Type v) where
  shared : Shared
  processes : List Process

/-- A process begins, moves, or is given up with all it holds. -/
inductive Schedule (Process : Type v) (Choice : Type w) where
  | begin (process : Process)
  | move (index : Nat) (choice : Choice)
  | abort (index : Nat)

namespace Program

variable {Shared : Type u} {Process : Type v} {Choice : Type w} {Resource : Type x}
  [DecidableEq Resource] (program : Program Shared Process Choice Resource)

/-- Nothing that the one process holds is held by the other. -/
def Apart (process other : Process) : Prop :=
  ∀ resource ∈ program.holds process, resource ∉ program.holds other

instance (process other : Process) : Decidable (program.Apart process other) :=
  inferInstanceAs (Decidable (∀ resource ∈ program.holds process, resource ∉ program.holds other))

/-- One entry of a schedule, if it is enabled. -/
def step (state : Interleaving Shared Process) :
    Schedule Process Choice → Option (Interleaving Shared Process)
  | .begin process =>
    if program.begins state.shared process && (program.holds process).isEmpty then
      some { state with processes := process :: state.processes }
    else none
  | .move index choice =>
    match state.processes[index]? with
    | none => none
    | some process =>
      match program.move state.shared process choice with
      | none => none
      | some (shared, next) =>
        let others := state.processes.eraseIdx index
        if ∀ moved ∈ next.toList, ∀ other ∈ others, program.Apart moved other then
          some { shared, processes := next.toList ++ others }
        else none
  | .abort index => some { state with processes := state.processes.eraseIdx index }

/-- No process is under way at first. -/
def Initially (initial : Shared → Prop) (state : Interleaving Shared Process) : Prop :=
  initial state.shared ∧ state.processes = []

def machine (initial : Shared → Prop) :
    Machine (Interleaving Shared Process) (Schedule Process Choice) :=
  .ofSteps (Initially initial) program.step

/-- An invariant and the assertions that go with it. -/
structure Annotated (invariant : Shared → Prop) (assertion : Shared → Process → Prop)
    (state : Interleaving Shared Process) : Prop where
  invariant : invariant state.shared
  assertions : ∀ process ∈ state.processes, assertion state.shared process
  apart : state.processes.Pairwise fun process other =>
    program.Apart process other ∧ program.Apart other process

variable {program} {invariant : Shared → Prop} {assertion : Shared → Process → Prop}
  {state : Interleaving Shared Process}

omit [DecidableEq Resource] in
theorem Annotated.others (annotated : program.Annotated invariant assertion state) {index : Nat}
    {process : Process} (picked : state.processes[index]? = some process) :
    ∀ other ∈ state.processes.eraseIdx index,
      program.Apart process other ∧ program.Apart other process := by
  obtain ⟨bound, rfl⟩ := List.getElem?_eq_some_iff.mp picked
  have split := (getElem_cons_eraseIdx_perm bound).symm
  have apart := (split.pairwise_iff fun one => ⟨one.2, one.1⟩).mp annotated.apart
  exact (pairwise_cons.mp apart).1

/-- Owicki and Gries: own moves establish, those of others keep. -/
theorem Annotated.reaches {initial : Shared → Prop}
    (initially : ∀ shared, initial shared → invariant shared)
    (begins : ∀ shared process, invariant shared → program.begins shared process →
      assertion shared process)
    (own : ∀ shared process choice after next, invariant shared → assertion shared process →
      program.move shared process choice = some (after, next) →
      invariant after ∧ ∀ moved ∈ next, assertion after moved)
    (others : ∀ shared process choice after next other, invariant shared →
      assertion shared process → program.move shared process choice = some (after, next) →
      program.Apart process other → (∀ moved ∈ next, program.Apart moved other) →
      assertion shared other → assertion after other)
    (reaches : (program.machine initial).Reaches state) :
    program.Annotated invariant assertion state := by
  apply reaches.invariant
  · rintro state ⟨begun, empty⟩
    refine ⟨initially _ begun, ?_, ?_⟩
    · rw [empty]
      nofun
    · rw [empty]
      exact List.Pairwise.nil
  · intro state label after _ annotated stepped
    have stepped : program.step state label = some after := stepped
    cases label with
    | begin =>
      rw [step] at stepped
      split at stepped
      · rename_i admitted
        rw [Bool.and_eq_true, List.isEmpty_iff] at admitted
        cases stepped
        refine ⟨annotated.invariant, ?_, ?_⟩
        · intro moved mem
          rcases mem_cons.mp mem with rfl | before
          · exact begins _ _ annotated.invariant admitted.1
          · exact annotated.assertions moved before
        · refine pairwise_cons.mpr ⟨?_, annotated.apart⟩
          intro other _
          constructor
          · intro resource held
            rw [admitted.2] at held
            exact absurd held not_mem_nil
          · intro resource _ held
            rw [admitted.2] at held
            exact absurd held not_mem_nil
      · cases stepped
    | move index =>
      rw [step] at stepped
      split at stepped
      · cases stepped
      · rename_i process picked
        split at stepped
        · cases stepped
        · rename_i shared next moves
          simp only at stepped
          split at stepped
          · rename_i free
            cases stepped
            have asserted := annotated.assertions process (mem_of_getElem? picked)
            have ⟨kept, established⟩ := own _ _ _ _ _ annotated.invariant asserted moves
            have before : ∀ other ∈ state.processes.eraseIdx index, other ∈ state.processes :=
              fun other mem => (eraseIdx_sublist _ _).subset mem
            refine ⟨kept, ?_, ?_⟩
            · intro moved mem
              rcases mem_append.mp mem with isNext | isOther
              · exact established moved (Option.mem_toList.mp isNext)
              · exact others _ _ _ _ _ moved annotated.invariant asserted moves
                  (annotated.others picked moved isOther).1
                  (fun last isLast => free last (Option.mem_toList.mpr isLast) moved isOther)
                  (annotated.assertions moved (before moved isOther))
            · refine pairwise_append.mpr ⟨?_, ?_, ?_⟩
              · cases next with
                | none => exact List.Pairwise.nil
                | some => exact pairwise_singleton _ _
              · exact annotated.apart.sublist (eraseIdx_sublist _ _)
              · intro moved isNext other isOther
                have apart := free moved isNext other isOther
                exact ⟨apart, fun resource held isHeld => apart resource isHeld held⟩
          · cases stepped
    | abort =>
      cases stepped
      refine ⟨annotated.invariant, ?_, annotated.apart.sublist (eraseIdx_sublist _ _)⟩
      intro moved mem
      exact annotated.assertions moved ((eraseIdx_sublist _ _).subset mem)

end Program

end Library
