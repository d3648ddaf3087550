import Mathlib.Data.List.Basic

/-! A bounded channel that serves its senders in the order of their requests. A slot that
becomes free is kept for the sender that waits longest, whoever asks for one next. -/
namespace Library

open List

universe u v

structure Channel (Sender : Type u) (Frame : Type v) where
  frames : List Frame := []
  /-- The senders that found no slot, and the one that has waited longest first. -/
  waiting : List Sender := []

namespace Channel

section

variable {Sender : Type u} {Frame : Type v} (capacity : Nat) (channel : Channel Sender Frame)

/-- There is a slot for a sender that asks now. -/
def hasRoom : Bool := channel.frames.length + channel.waiting.length < capacity

/-- The waiting senders that a slot is kept for. -/
def granted : List Sender := channel.waiting.take (capacity - channel.frames.length)

variable [DecidableEq Sender]

/-- The channel without a sender that has sent or has given up. -/
def withdraw (sender : Sender) : Channel Sender Frame :=
  { channel with waiting := channel.waiting.filter (· ≠ sender) }

/-- Who asks sends at once where there is room, and who waits when a slot is kept for it;
who finds no slot begins to wait. The answer tells whether the frame was sent. -/
def send (sender : Sender) (frame : Frame) : Option (Channel Sender Frame × Bool) :=
  if sender ∈ channel.granted capacity ∨
      (sender ∉ channel.waiting ∧ channel.hasRoom capacity = true) then
    some ({ channel.withdraw sender with frames := channel.frames ++ [frame] }, true)
  else if sender ∈ channel.waiting then none
  else some ({ channel with waiting := channel.waiting ++ [sender] }, false)

/-- Everything a request to send can do. -/
inductive Sends (sender : Sender) (frame : Frame) : Channel Sender Frame → Bool → Prop where
  | sent (slot : channel.frames.length < capacity) : Sends sender frame
      { channel.withdraw sender with frames := channel.frames ++ [frame] } true
  | waits (full : channel.hasRoom capacity = false) : Sends sender frame
      { channel with waiting := channel.waiting ++ [sender] } false

end

variable {Sender : Type u} {Frame : Type v} {capacity : Nat} {channel after : Channel Sender Frame}
  {sender : Sender} {frame : Frame}

theorem granted_subset : channel.granted capacity ⊆ channel.waiting := take_subset _ _

theorem length_lt_of_granted (granted : sender ∈ channel.granted capacity) :
    channel.frames.length < capacity := by
  by_contra full
  rw [Channel.granted, Nat.sub_eq_zero_of_le (Nat.le_of_not_lt full), take_zero] at granted
  exact not_mem_nil granted

theorem length_lt_of_hasRoom (room : channel.hasRoom capacity = true) :
    channel.frames.length < capacity := by
  rw [hasRoom, decide_eq_true_eq] at room
  omega

/-- Where no frame can be received, a slot is kept for the sender that has waited longest. -/
theorem granted_of_empty (waits : sender ∈ channel.waiting) (empty : channel.frames = [])
    (positive : 0 < capacity) : ∃ first, first ∈ channel.granted capacity := by
  obtain ⟨first, later, same⟩ := exists_cons_of_ne_nil (ne_nil_of_mem waits)
  obtain ⟨more, rfl⟩ := Nat.exists_eq_succ_of_ne_zero (Nat.ne_of_gt positive)
  refine ⟨first, ?_⟩
  rw [granted, empty, same, length_nil, Nat.sub_zero, take_succ_cons]
  exact .head _

variable [DecidableEq Sender] {sent : Bool}

/-- A frame is queued where there is a slot for it; else its sender waits. -/
theorem send_sends (asked : channel.send capacity sender frame = some (after, sent)) :
    Sends capacity channel sender frame after sent := by
  rw [send] at asked
  split at asked
  · rename_i slot
    cases asked
    exact .sent (slot.elim length_lt_of_granted fun room => length_lt_of_hasRoom room.2)
  · rename_i noSlot
    split at asked
    · cases asked
    · rename_i asksNow
      cases asked
      refine .waits ?_
      rw [not_or, not_and, Bool.not_eq_true] at noSlot
      exact noSlot.2 asksNow

theorem send_of_hasRoom (asks : sender ∉ channel.waiting) (room : channel.hasRoom capacity = true) :
    channel.send capacity sender frame =
      some ({ channel.withdraw sender with frames := channel.frames ++ [frame] }, true) :=
  if_pos (.inr ⟨asks, room⟩)

theorem send_of_granted (granted : sender ∈ channel.granted capacity) :
    channel.send capacity sender frame =
      some ({ channel.withdraw sender with frames := channel.frames ++ [frame] }, true) :=
  if_pos (.inl granted)

theorem send_isSome_of_asks (asks : sender ∉ channel.waiting) :
    (channel.send capacity sender frame).isSome := by
  rw [send]
  split <;> rfl

/-- A frame is kept back only where another can be received or another sender has a slot. -/
theorem send_isSome_or (channel : Channel Sender Frame) (sender : Sender) (frame : Frame)
    (positive : 0 < capacity) :
    (channel.send capacity sender frame).isSome ∨ channel.frames ≠ [] ∨
      ∃ first, first ∈ channel.granted capacity := by
  by_cases waits : sender ∈ channel.waiting
  · right
    by_cases empty : channel.frames = []
    · exact .inr (granted_of_empty waits empty positive)
    · exact .inl empty
  · exact .inl (send_isSome_of_asks waits)

end Channel

end Library
