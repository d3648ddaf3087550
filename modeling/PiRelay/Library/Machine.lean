import PiRelay.Library.Parties

/-! Labelled transition systems and the states their runs reach. A guard limits
the steps a run may take, so that a result can be stated about the runs whose
steps all meet a condition. -/
namespace Library

universe u v

structure Machine (State : Type u) (Label : Type v) where
  initial : State → Prop
  step : State → Label → State → Prop

namespace Machine

variable {State : Type u} {Label : Type v} {machine : Machine State Label}

/-- The states at the end of some finite run. -/
inductive Reaches (machine : Machine State Label) : State → Prop where
  | start {state : State} (initially : machine.initial state) : Reaches machine state
  | next {state after : State} {label : Label} (prior : Reaches machine state)
      (last : machine.step state label after) : Reaches machine after

variable {state first : State} {guard : State → Label → Prop} {initial : State → Prop}

/-- The induction over runs, with the state before a step reached. -/
theorem Reaches.invariant {motive : State → Prop} (reaches : machine.Reaches state)
    (initially : ∀ state, machine.initial state → motive state)
    (keeps : ∀ state label after, machine.Reaches state → motive state →
      machine.step state label after → motive after) : motive state := by
  induction reaches with
  | start hInitial => exact initially _ hInitial
  | next prior last ih => exact keeps _ _ _ prior ih last

/-- The states at the end of a finite run from a given state. -/
inductive Leads (machine : Machine State Label) (first : State) : State → Prop where
  | refl : Leads machine first first
  | next {state after : State} {label : Label} (prior : Leads machine first state)
      (last : machine.step state label after) : Leads machine first after

theorem Leads.reaches (leads : machine.Leads first state) (reaches : machine.Reaches first) :
    machine.Reaches state := by
  induction leads with
  | refl => exact reaches
  | next _ last ih => exact .next ih last

theorem Leads.trans {middle : State} (leads : machine.Leads first middle)
    (later : machine.Leads middle state) : machine.Leads first state := by
  induction later with
  | refl => exact leads
  | next _ last ih => exact .next ih last

/-- What holds at a reached state is kept on the way from it. -/
theorem Leads.relates {motive : State → Prop} (leads : machine.Leads first state)
    (reaches : machine.Reaches first) (begins : motive first)
    (keeps : ∀ state label after, machine.Reaches state → motive state →
      machine.step state label after → motive after) : motive state := by
  induction leads with
  | refl => exact begins
  | next prior last ih => exact keeps _ _ _ (prior.reaches reaches) ih last

/-- The machine that takes only the steps the guard admits. -/
def guarded (machine : Machine State Label) (guard : State → Label → Prop) :
    Machine State Label where
  initial := machine.initial
  step state label after := guard state label ∧ machine.step state label after

theorem Reaches.of_guarded (reaches : (machine.guarded guard).Reaches state) :
    machine.Reaches state := by
  induction reaches with
  | start initially => exact .start initially
  | next _ last ih => exact .next ih last.2

/-- The machine of a deterministic program: every call has one effect. -/
def ofCalls (initial : State → Prop) (call : State → Label → State) : Machine State Label where
  initial := initial
  step state label after := after = call state label

theorem Reaches.call {call : State → Label → State}
    (prior : ((ofCalls initial call).guarded guard).Reaches state) (label : Label)
    (admitted : guard state label) :
    ((ofCalls initial call).guarded guard).Reaches (call state label) :=
  .next prior ⟨admitted, rfl⟩

theorem Reaches.calls {call : State → Label → State} (prior : (ofCalls initial call).Reaches state)
    (labels : List Label) : (ofCalls initial call).Reaches (labels.foldl call state) := by
  induction labels generalizing state with
  | nil => exact prior
  | cons _ _ ih => exact ih (.next prior rfl)

/-- The machine of a program whose steps are enabled or not. -/
def ofSteps (initial : State → Prop) (step : State → Label → Option State) :
    Machine State Label where
  initial := initial
  step state label after := step state label = some after

/-- Enabled labels lead on from where a run has come. -/
theorem Leads.run {step : State → Label → Option State} {labels : List Label} {after : State}
    (prior : (ofSteps initial step).Leads first state)
    (enabled : labels.foldlM step state = some after) : (ofSteps initial step).Leads first after := by
  induction labels generalizing state with
  | nil =>
    cases enabled
    exact prior
  | cons _ _ ih =>
    obtain ⟨_, one, later⟩ := Option.bind_eq_some_iff.mp enabled
    exact ih (.next prior one) later

theorem Reaches.run {step : State → Label → Option State} {labels : List Label} {after : State}
    (prior : (ofSteps initial step).Reaches state) (enabled : labels.foldlM step state = some after) :
    (ofSteps initial step).Reaches after :=
  (Leads.run .refl enabled).reaches prior

/-- A script whose checks pass is a run within the guard. -/
theorem Reaches.checkedRun {Script : Type v} {label : Script → Label}
    {check : State → Script → Bool} {step : State → Label → Option State} {script : List Script}
    {after : State} (sound : ∀ state entry, check state entry → guard state (label entry))
    (prior : ((ofSteps initial step).guarded guard).Reaches state) (enabled : script.foldlM
      (fun state entry => if check state entry then step state (label entry) else none) state =
        some after) : ((ofSteps initial step).guarded guard).Reaches after := by
  induction script generalizing state with
  | nil =>
    cases enabled
    exact prior
  | cons entry _ ih =>
    rw [List.foldlM_cons] at enabled
    obtain ⟨_, first, later⟩ := Option.bind_eq_some_iff.mp enabled
    split at first
    · rename_i checked
      exact ih (.next prior ⟨sound state entry checked, first⟩) later
    · cases first

end Machine

end Library
