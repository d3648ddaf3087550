import Mathlib.Data.List.Basic

/-! Frames that separators end in a buffer which grows from chunk to chunk. Where a separator
that was found stays the first one whatever follows, the cut into chunks does not show: the
same frames are processed in the same order, up to the same outcome. -/
namespace Library

open List

universe u v w

/-- Where the first separator of a buffer begins, and how long it is. -/
structure Framing (Symbol : Type u) where
  boundary : List Symbol → Option (Nat × Nat)
  progress : ∀ {buffer found}, boundary buffer = some found →
    0 < found.2 ∧ found.1 + found.2 ≤ buffer.length
  stable : ∀ {buffer found}, boundary buffer = some found →
    ∀ later, boundary (buffer ++ later) = some found

namespace Framing

variable {Symbol : Type u} {State : Type v} {Outcome : Type w} (framing : Framing Symbol)
  (process : State → List Symbol → State × Option Outcome)

/-- The frames of a buffer are processed until one has an outcome; otherwise what follows the
last separator is left. -/
def drain (state : State) (buffer : List Symbol) : State × (Outcome ⊕ List Symbol) :=
  match _found : framing.boundary buffer with
  | none => (state, .inr buffer)
  | some (frameEnd, separatorLen) =>
    match process state (buffer.take frameEnd) with
    | (after, some outcome) => (after, .inl outcome)
    | (after, none) => drain after (buffer.drop (frameEnd + separatorLen))
termination_by buffer.length
decreasing_by
  have := framing.progress _found
  rw [length_drop]
  omega

/-- A buffer that takes one chunk after another and is drained each time. -/
def feed (state : State) (buffer : List Symbol) :
    List (List Symbol) → State × (Outcome ⊕ List Symbol)
  | [] => (state, .inr buffer)
  | chunk :: chunks =>
    match framing.drain process state (buffer ++ chunk) with
    | (after, .inl outcome) => (after, .inl outcome)
    | (after, .inr rest) => feed after rest chunks

variable {framing process} {state after : State} {buffer rest : List Symbol}
  {frameEnd separatorLen : Nat}

theorem drain_of_none (complete : framing.boundary buffer = none) :
    framing.drain process state buffer = (state, .inr buffer) := by
  rw [drain]
  split
  · rfl
  · rename_i found
    rw [complete] at found
    cases found

theorem drain_of_some (found : framing.boundary buffer = some (frameEnd, separatorLen)) :
    framing.drain process state buffer =
      match process state (buffer.take frameEnd) with
      | (after, some outcome) => (after, .inl outcome)
      | (after, none) => framing.drain process after (buffer.drop (frameEnd + separatorLen)) := by
  rw [drain]
  split
  · rename_i complete
    rw [complete] at found
    cases found
  · rename_i foundEnd foundLen same
    cases same.symm.trans found
    rfl

theorem boundary_of_drain (drained : framing.drain process state buffer = (after, .inr rest)) :
    framing.boundary rest = none := by
  induction size : buffer.length using Nat.strongRecOn generalizing state buffer with
  | ind _ ih =>
    cases found : framing.boundary buffer with
    | none =>
      rw [drain_of_none found] at drained
      cases drained
      exact found
    | some separator =>
      obtain ⟨_, _⟩ := separator
      have shrinks := framing.progress found
      rw [drain_of_some found] at drained
      split at drained
      · cases drained
      · refine ih _ ?_ drained rfl
        rw [length_drop]
        omega

/-- Draining goes on where it stopped once more symbols have come. -/
theorem drain_append (later : List Symbol) :
    framing.drain process state (buffer ++ later) =
      match framing.drain process state buffer with
      | (after, .inl outcome) => (after, .inl outcome)
      | (after, .inr rest) => framing.drain process after (rest ++ later) := by
  induction size : buffer.length using Nat.strongRecOn generalizing state buffer with
  | ind length ih =>
    cases found : framing.boundary buffer with
    | none => rw [drain_of_none found]
    | some separator =>
      obtain ⟨frameEnd, _⟩ := separator
      obtain ⟨_, bounded⟩ := framing.progress found
      have whole : frameEnd ≤ buffer.length := by omega
      rw [drain_of_some found, drain_of_some (framing.stable found later),
        take_append_of_le_length whole, drop_append_of_le_length bounded]
      cases processed : process state (buffer.take frameEnd) with
      | mk _ outcome =>
        cases outcome with
        | some => rfl
        | none =>
          refine ih _ ?_ rfl
          rw [length_drop]
          omega

/-- However a text is cut into chunks, it is drained the same. -/
theorem feed_eq_drain (complete : framing.boundary buffer = none) (chunks : List (List Symbol)) :
    framing.feed process state buffer chunks =
      framing.drain process state (buffer ++ chunks.flatten) := by
  induction chunks generalizing state buffer with
  | nil => rw [feed, flatten_nil, append_nil, drain_of_none complete]
  | cons chunk chunks ih =>
    rw [feed, flatten_cons, ← append_assoc, drain_append chunks.flatten]
    cases drained : framing.drain process state (buffer ++ chunk) with
    | mk _ ended =>
      cases ended with
      | inl => rfl
      | inr => exact ih (boundary_of_drain drained)

end Framing

end Library
