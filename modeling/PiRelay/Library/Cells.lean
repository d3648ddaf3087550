import Mathlib.Data.List.Basic

/-! Events that each work on one cell of a store. A run over all events is one run for each
cell over the events of this cell, so the order of events of different cells is of no
account. -/
namespace Library

open List

variable {Key Cell Event : Type} [DecidableEq Key]

/-- An event reads and writes the cell under its key. -/
def stepCell (key : Event → Key) (step : Cell → Event → Option Cell) (cells : Key → Cell)
    (event : Event) : Option (Key → Cell) :=
  (step (cells (key event)) event).map (Function.update cells (key event))

def runCells (key : Event → Key) (step : Cell → Event → Option Cell) (cells : Key → Cell)
    (events : List Event) : Option (Key → Cell) :=
  events.foldlM (stepCell key step) cells

/-- The events of one cell. -/
def eventsAt (key : Event → Key) (cell : Key) (events : List Event) : List Event :=
  events.filter fun event => key event = cell

variable {key : Event → Key} {step : Cell → Event → Option Cell}

theorem eventsAt_cons_self (event : Event) (rest : List Event) :
    eventsAt key (key event) (event :: rest) = event :: eventsAt key (key event) rest := by
  simp [eventsAt]

theorem eventsAt_cons_of_ne {event : Event} {cell : Key} (apart : key event ≠ cell)
    (rest : List Event) : eventsAt key cell (event :: rest) = eventsAt key cell rest := by
  simp [eventsAt, apart]

/-- A run over all cells is a run over each cell of its own events. -/
theorem runCells_eq_some_iff {cells final : Key → Cell} {events : List Event} :
    runCells key step cells events = some final ↔
      ∀ cell, (eventsAt key cell events).foldlM step (cells cell) = some (final cell) := by
  induction events generalizing cells with
  | nil => simp [runCells, eventsAt, funext_iff]
  | cons event rest ih =>
    rw [runCells, foldlM_cons, stepCell]
    cases stepped : step (cells (key event)) event with
    | none =>
      constructor
      · nofun
      · intro runs
        have first := runs (key event)
        rw [eventsAt_cons_self, foldlM_cons, stepped] at first
        cases first
    | some after =>
      show runCells key step (Function.update cells (key event) after) rest = some final ↔ _
      rw [ih]
      refine forall_congr' fun cell => ?_
      by_cases here : key event = cell
      · subst here
        rw [Function.update_self, eventsAt_cons_self, foldlM_cons, stepped]
        rfl
      · rw [Function.update_of_ne (Ne.symm here), eventsAt_cons_of_ne here]

theorem runCells_congr {cells : Key → Cell} {first second : List Event}
    (same : ∀ cell, (eventsAt key cell first).foldlM step (cells cell) =
      (eventsAt key cell second).foldlM step (cells cell)) :
    runCells key step cells first = runCells key step cells second := by
  refine Option.ext fun final => ?_
  rw [runCells_eq_some_iff, runCells_eq_some_iff]
  simp only [same]

end Library
