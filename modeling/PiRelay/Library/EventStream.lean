import Mathlib.Data.List.TakeWhile

/-! A reader of a stream absorbs one event after another into its state. An event may end
the reading; what comes after it is never looked at. -/
namespace Library

open List

variable {State Event Fault : Type}

/-- What a reader asks for after an event. -/
inductive Control where
  | more
  | stop

def consume (step : State → Event → Except Fault (State × Control)) (state : State) :
    List Event → Except Fault State
  | [] => .ok state
  | event :: rest =>
    match step state event with
    | .error fault => .error fault
    | .ok (after, .more) => consume step after rest
    | .ok (after, .stop) => .ok after

variable {step : State → Event → Except Fault (State × Control)}

theorem consume_cons_eq_ok {state final : State} {event : Event} {rest : List Event}
    (run : consume step state (event :: rest) = .ok final) :
    step state event = .ok (final, .stop) ∨
      ∃ after, step state event = .ok (after, .more) ∧ consume step after rest = .ok final := by
  rw [consume] at run
  split at run
  · cases run
  · exact Or.inr ⟨_, by assumption, run⟩
  · cases run
    exact Or.inl (by assumption)

theorem consume_append_congr {first second : List Event}
    (same : ∀ state, consume step state first = consume step state second)
    (before : List Event) (state : State) :
    consume step state (before ++ first) = consume step state (before ++ second) := by
  induction before generalizing state with
  | nil => exact same state
  | cons _ _ ih =>
    rw [cons_append, cons_append, consume, consume]
    split
    · rfl
    · exact ih _
    · rfl

/-- Events that never change the state need not be read. -/
theorem consume_filter {reads : Event → Bool}
    (passes : ∀ state event, reads event = false → step state event = .ok (state, .more))
    (state : State) (events : List Event) :
    consume step state (events.filter reads) = consume step state events := by
  induction events generalizing state with
  | nil => rfl
  | cons event _ ih =>
    cases isRead : reads event with
    | false =>
      rw [filter_cons_of_neg (by simp [isRead]), ih, consume, passes state event isRead]
    | true =>
      rw [filter_cons_of_pos isRead, consume, consume]
      split
      · rfl
      · exact ih _
      · rfl

/-- The events that end a reading, as a step tells them from the others. -/
structure EndsAt (step : State → Event → Except Fault (State × Control)) (ends : Event → Bool) :
    Prop where
  ends_of_stop : ∀ {state after event}, step state event = .ok (after, .stop) → ends event = true
  goes_on_of_more : ∀ {state after event},
    step state event = .ok (after, .more) → ends event = false

/-- What each event keeps holds up to the event that ends the stream. -/
theorem EndsAt.consume_rule {ends : Event → Bool} (endsAt : EndsAt step ends)
    {motive : List Event → State → Prop} (keeps : ∀ {seen state event after}, motive seen state →
      step state event = .ok (after, .more) → motive (seen ++ [event]) after)
    {seen events : List Event} {state final : State} (initially : motive seen state)
    (run : consume step state events = .ok final) :
    (events.find? ends = none ∧ motive (seen ++ events) final) ∨
      ∃ last prior, events.find? ends = some last ∧
        motive (seen ++ events.takeWhile (!ends ·)) prior ∧ step prior last = .ok (final, .stop) := by
  induction events generalizing seen state with
  | nil =>
    cases run
    left
    constructor
    · rfl
    · rw [append_nil]
      exact initially
  | cons event rest ih =>
    obtain stopped | ⟨after, went, runsOn⟩ := consume_cons_eq_ok run
    · have last := endsAt.ends_of_stop stopped
      right
      refine ⟨event, state, ?_, ?_, stopped⟩
      · rw [find?_cons, last]
      · rw [takeWhile_cons, last]
        simpa using initially
    · have passed := endsAt.goes_on_of_more went
      have found : (event :: rest).find? ends = rest.find? ends := by
        rw [find?_cons, passed]
      have taken : (event :: rest).takeWhile (!ends ·) = event :: rest.takeWhile (!ends ·) := by
        rw [takeWhile_cons, passed]
        rfl
      obtain ⟨absent, holds⟩ | ⟨last, prior, isLast, holds, stops⟩ := ih (keeps initially went) runsOn
      · left
        constructor
        · rw [found]
          exact absent
        · simpa using holds
      · right
        refine ⟨last, prior, ?_, ?_, stops⟩
        · rw [found]
          exact isLast
        · rw [taken]
          simpa using holds

end Library
