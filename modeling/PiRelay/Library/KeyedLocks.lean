import Mathlib.Data.Finset.Max
import PiRelay.Library.Parties

/-! Locks that are made for keys on demand. A map hands out the lock of a key, makes one if
it has none, and first forgets every lock that no request refers to. A request takes the
locks of its keys one after the other, in ascending order. -/
namespace Library

universe u

structure LockRequest (Key : Type u) where
  guards : List (Key × Nat) := []
  waits : Option (Key × Nat) := none
  left : List Key := []

structure KeyedLocks (Key : Type u) where
  locks : Key → Option Nat
  made : Nat
  requests : List (LockRequest Key)

variable {Key : Type u}

namespace LockRequest

variable (request : LockRequest Key)

/-- The locks that the request refers to, each with the key it was handed out for. -/
def refs : List (Key × Nat) := request.guards ++ request.waits.toList

def keys : List Key := request.refs.map Prod.fst ++ request.left

/-- The request has all it asked for. -/
def granted : Bool := request.waits.isNone && request.left.isEmpty

end LockRequest

open LockRequest List Option

namespace KeyedLocks

def empty : KeyedLocks Key := ⟨fun _ => none, 0, []⟩

section Operations

variable (state : KeyedLocks Key)

def referred (lock : Nat) : Bool :=
  state.requests.any fun request => request.refs.any (·.2 == lock)

def held (lock : Nat) : Bool :=
  state.requests.any fun request => request.guards.any (·.2 == lock)

/-- The map without the locks that no request refers to. -/
def retained (key : Key) : Option Nat := (state.locks key).filter state.referred

/-- The lock that a request is handed out for a key. -/
def lockOf (key : Key) : Nat := (state.retained key).getD state.made

def withLock [LinearOrder Key] (key : Key) : KeyedLocks Key :=
  { state with
    locks := Function.update state.retained key (some (state.lockOf key))
    made := if (state.retained key).isSome then state.made else state.made + 1 }

def put (id : Nat) (request : LockRequest Key) : KeyedLocks Key :=
  { state with requests := state.requests.set id request }

/-- One more request. -/
def enter (keys : List Key) : KeyedLocks Key :=
  { state with requests := state.requests ++ [{ left := keys }] }

def ask (id : Nat) (keys : List Key) : Option (KeyedLocks Key) :=
  match state.requests[id]? with
  | some ⟨[], none, []⟩ => some (state.put id { left := keys })
  | _ => none

def take [LinearOrder Key] (id : Nat) : Option (KeyedLocks Key) :=
  match state.requests[id]? with
  | some ⟨guards, none, key :: left⟩ =>
    some ((state.withLock key).put id ⟨guards, some (key, state.lockOf key), left⟩)
  | _ => none

def acquire (id : Nat) : Option (KeyedLocks Key) :=
  match state.requests[id]? with
  | some ⟨guards, some (key, lock), left⟩ =>
    if state.held lock then none
    else some (state.put id ⟨guards ++ [(key, lock)], none, left⟩)
  | _ => none

def drop (id : Nat) : KeyedLocks Key := state.put id {}

end Operations

def Holds (state : KeyedLocks Key) (id : Nat) (key : Key) (lock : Nat) : Prop :=
  ∃ request, state.requests[id]? = some request ∧ (key, lock) ∈ request.guards

def Waits (state : KeyedLocks Key) (id : Nat) (key : Key) (lock : Nat) : Prop :=
  ∃ request, state.requests[id]? = some request ∧ request.waits = some (key, lock)

variable {state : KeyedLocks Key}

theorem held_iff {lock : Nat} : state.held lock ↔ ∃ id key, state.Holds id key lock := by
  simp only [held, List.any_eq_true, beq_iff_eq, mem_iff_getElem?, Holds]
  constructor
  · rintro ⟨request, ⟨id, found⟩, ⟨key, _⟩, ⟨index, isGuard⟩, rfl⟩
    exact ⟨id, key, request, found, index, isGuard⟩
  · rintro ⟨id, key, request, found, index, isGuard⟩
    exact ⟨request, ⟨id, found⟩, (key, lock), ⟨index, isGuard⟩, rfl⟩

variable {request : LockRequest Key}

theorem referred_of_mem {ref : Key × Nat}
    (mem : request ∈ state.requests) (isRef : ref ∈ request.refs) : state.referred ref.2 := by
  apply List.any_eq_true.mpr
  exact ⟨request, mem, List.any_eq_true.mpr ⟨ref, isRef, beq_self_eq_true _⟩⟩

theorem retained_some {key : Key} {lock : Nat} (isKept : state.retained key = some lock) :
    state.locks key = some lock := by
  rw [retained, filter_eq_some_iff] at isKept
  exact isKept.1

section Effects

variable {state : KeyedLocks Key} {id : Nat} {key : Key}
variable {after : KeyedLocks Key} {lock other : Nat}

theorem ask_eq_some {keys : List Key} (isAfter : state.ask id keys = some after) :
    state.requests[id]? = some {} ∧ after = state.put id { left := keys } := by
  rw [ask] at isAfter
  split at isAfter
  · rename_i found
    exact ⟨found, (Option.some.inj isAfter).symm⟩
  · cases isAfter

variable (guards : List (Key × Nat))

theorem take_keys (key : Key) (left : List Key) (lock : Nat) :
    (LockRequest.mk guards (some (key, lock)) left).keys
      = (LockRequest.mk guards none (key :: left)).keys := by
  simp [LockRequest.keys, refs]

theorem acquire_eq_some (isAfter : state.acquire id = some after) :
    ∃ guards key lock left, state.requests[id]? = some ⟨guards, some (key, lock), left⟩ ∧
      state.held lock = false ∧ after = state.put id ⟨guards ++ [(key, lock)], none, left⟩ := by
  rw [acquire] at isAfter
  split at isAfter
  · rename_i guards key lock left found
    split at isAfter
    · cases isAfter
    · rename_i free
      exact ⟨guards, key, lock, left, found, Bool.not_eq_true _ ▸ free,
        (Option.some.inj isAfter).symm⟩
  · cases isAfter

theorem acquire_refs (waits : Key × Nat) (left : List Key) :
    (LockRequest.mk (guards ++ [waits]) none left).refs
      = (LockRequest.mk guards (some waits) left).refs := by
  simp [refs]

theorem acquire_keys (waits : Key × Nat) (left : List Key) :
    (LockRequest.mk (guards ++ [waits]) none left).keys
      = (LockRequest.mk guards (some waits) left).keys := by
  rw [LockRequest.keys, acquire_refs, LockRequest.keys]

/-- The request waits for a lock that the other one holds. -/
def WaitsFor (state : KeyedLocks Key) (id other : Nat) : Prop :=
  ∃ key lock otherKey, state.Waits id key lock ∧ state.Holds other otherKey lock

/-- The key that a request waits for. -/
def waitedKey (state : KeyedLocks Key) (id : Nat) : WithBot Key :=
  (state.requests[id]?.bind LockRequest.waits).map Prod.fst

theorem waitedKey_of_waits (waits : state.Waits id key lock) :
    state.waitedKey id = (key : WithBot Key) := by
  obtain ⟨_, found, isWait⟩ := waits
  rw [waitedKey, found, bind_some, isWait]
  rfl

theorem holds_put {before after : LockRequest Key} (found : state.requests[id]? = some before) :
    (state.put id after).Holds other key lock ↔
      other = id ∧ (key, lock) ∈ after.guards ∨ other ≠ id ∧ state.Holds other key lock := by
  have inBounds := (List.getElem?_eq_some_iff.mp found).1
  rcases eq_or_ne other id with rfl | different
  · simp [Holds, put, getElem?_set_self inBounds]
  · simp [Holds, put, getElem?_set_ne (Ne.symm different), different]

theorem holds_enter {keys : List Key} :
    (state.enter keys).Holds other key lock ↔ state.Holds other key lock := by
  rw [Holds, Holds, enter, getElem?_append]
  split
  · rfl
  · rename_i new
    constructor
    · rintro ⟨request, isRequest, isGuard⟩
      have isNew : request = { left := keys } := by simpa using mem_of_getElem? isRequest
      subst isNew
      cases isGuard
    · rintro ⟨request, isRequest, -⟩
      exact absurd (List.getElem?_eq_some_iff.mp isRequest).1 new

theorem holds_drop :
    (state.drop id).Holds other key lock ↔ other ≠ id ∧ state.Holds other key lock := by
  cases found : state.requests[id]? with
  | none =>
    rw [drop, put, set_eq_of_length_le (getElem?_eq_none_iff.mp found)]
    constructor
    · rintro ⟨request, isRequest, isGuard⟩
      refine ⟨?_, request, isRequest, isGuard⟩
      rintro rfl
      rw [found] at isRequest
      cases isRequest
    · exact And.right
  | some =>
    rw [drop, holds_put found]
    simp

theorem holds_take [LinearOrder Key] (other : Nat) (key : Key) (lock : Nat)
    (isAfter : state.take id = some after) :
    after.Holds other key lock ↔ state.Holds other key lock := by
  rw [take] at isAfter
  split at isAfter
  · rename_i guards asked left found
    cases isAfter
    have sameRequest : (state.withLock asked).requests[id]? = some ⟨guards, none, asked :: left⟩ :=
      found
    rw [holds_put sameRequest]
    rcases eq_or_ne other id with rfl | different
    · simp [Holds, found]
    · simp [different, Holds, withLock]
  · cases isAfter

theorem holds_acquire (other : Nat) (key : Key) (lock : Nat)
    (isAfter : state.acquire id = some after) :
    after.Holds other key lock ↔
      state.Holds other key lock ∨ other = id ∧ state.Waits id key lock := by
  obtain ⟨_, _, _, _, found, -, rfl⟩ := acquire_eq_some isAfter
  rw [holds_put found]
  rcases eq_or_ne other id with rfl | different
  · simp [Holds, Waits, found, eq_comm]
  · simp [different]

theorem keys_put {before after : LockRequest Key} (found : state.requests[id]? = some before)
    (keys : after.keys = before.keys)
    (isRequest : (state.put id after).requests[other]? = some request) :
    ∃ earlier, state.requests[other]? = some earlier ∧ request.keys = earlier.keys := by
  rcases getElem?_set_cases isRequest with ⟨rfl, rfl⟩ | ⟨-, was⟩
  · exact ⟨before, found, keys⟩
  · exact ⟨request, was, rfl⟩

end Effects

/-- Whoever refers to a lock, the map has it; each lock has one key and one holder; requests
go through their keys in ascending order. -/
structure Sound [LinearOrder Key] (state : KeyedLocks Key) : Prop where
  mapped : ∀ request ∈ state.requests, ∀ ref ∈ request.refs, state.locks ref.1 = some ref.2
  old : ∀ key lock, state.locks key = some lock → lock < state.made
  apart : ∀ key other lock, state.locks key = some lock → state.locks other = some lock →
    key = other
  exclusive : ∀ id other key otherKey lock, state.Holds id key lock →
    state.Holds other otherKey lock → id = other
  ascending : ∀ request ∈ state.requests, request.keys.Pairwise (· < ·)

section Sound

variable [LinearOrder Key] {state : KeyedLocks Key} {id other : Nat} {key : Key}

theorem empty_sound : Sound (empty : KeyedLocks Key) where
  mapped := by simp [empty]
  old := by simp [empty]
  apart := by simp [empty]
  exclusive := by simp [empty, Holds]
  ascending := by simp [empty]

/-- A request may move to what it has mapped, if it takes free locks. -/
theorem Sound.put (sound : Sound state) {before after : LockRequest Key}
    (found : state.requests[id]? = some before)
    (mapped : ∀ ref ∈ after.refs, state.locks ref.1 = some ref.2)
    (free : ∀ ref ∈ after.guards, ref ∈ before.guards ∨ state.held ref.2 = false)
    (ascending : after.keys.Pairwise (· < ·)) : Sound (state.put id after) := by
  have holds : ∀ {request key lock}, (state.put id after).Holds request key lock →
      state.Holds request key lock ∨ request = id ∧ state.held lock = false := by
    intro request key lock isHeld
    rcases (holds_put found).mp isHeld with ⟨rfl, isGuard⟩ | ⟨-, was⟩
    · rcases free _ isGuard with wasGuard | isFree
      · exact .inl ⟨before, found, wasGuard⟩
      · exact .inr ⟨rfl, isFree⟩
    · exact .inl was
  have notHeld : ∀ {request key lock}, state.held lock = false →
      ¬ state.Holds request key lock := by
    intro request key lock isFree isHeld
    rw [held_iff.mpr ⟨request, key, isHeld⟩] at isFree
    cases isFree
  refine ⟨?_, sound.old, sound.apart, ?_, ?_⟩
  · intro request mem
    rcases mem_or_eq_of_mem_set mem with was | rfl
    · exact sound.mapped request was
    · exact mapped
  · intro first second firstKey secondKey lock hFirst hSecond
    rcases holds hFirst with wasFirst | ⟨rfl, isFree⟩
    · rcases holds hSecond with wasSecond | ⟨rfl, isFree⟩
      · exact sound.exclusive first second firstKey secondKey lock wasFirst wasSecond
      · exact absurd wasFirst (notHeld isFree)
    · rcases holds hSecond with wasSecond | ⟨rfl, _⟩
      · exact absurd wasSecond (notHeld isFree)
      · rfl
  · intro request mem
    rcases mem_or_eq_of_mem_set mem with was | rfl
    · exact sound.ascending request was
    · exact ascending

theorem Sound.retained_of_ref (sound : Sound state) {ref : Key × Nat}
    (mem : request ∈ state.requests) (isRef : ref ∈ request.refs) :
    state.retained ref.1 = some ref.2 := by
  rw [retained, sound.mapped request mem ref isRef, filter_eq_some_iff]
  exact ⟨rfl, referred_of_mem mem isRef⟩

theorem withLock_locks_self : (state.withLock key).locks key = some (state.lockOf key) :=
  Function.update_self ..

theorem withLock_locks_of_ne {otherKey : Key} (different : otherKey ≠ key) :
    (state.withLock key).locks otherKey = state.retained otherKey :=
  Function.update_of_ne different ..

theorem withLock_locks {otherKey : Key} {lock : Nat}
    (isLock : (state.withLock key).locks otherKey = some lock) :
    otherKey = key ∧ lock = state.lockOf key ∨
      otherKey ≠ key ∧ state.retained otherKey = some lock := by
  rcases eq_or_ne otherKey key with rfl | different
  · rw [withLock_locks_self] at isLock
    exact .inl ⟨rfl, (Option.some.inj isLock).symm⟩
  · rw [withLock_locks_of_ne different] at isLock
    exact .inr ⟨different, isLock⟩

theorem lockOf_cases (state : KeyedLocks Key) (key : Key) :
    state.retained key = some (state.lockOf key) ∧ (state.withLock key).made = state.made ∨
      state.lockOf key = state.made ∧ (state.withLock key).made = state.made + 1 := by
  cases kept : state.retained key with
  | none => exact .inr ⟨by rw [lockOf, kept]; rfl, by rw [withLock, kept]; rfl⟩
  | some => exact .inl ⟨by rw [lockOf, kept]; rfl, by rw [withLock, kept]; rfl⟩

/-- A lock that is made for a key changes nothing for the requests. -/
theorem Sound.withLock (sound : Sound state) (key : Key) : Sound (state.withLock key) := by
  have keptOld : ∀ {otherKey lock}, state.retained otherKey = some lock → lock < state.made :=
    fun isKept => sound.old _ _ (retained_some isKept)
  have keptApart : ∀ {one another lock}, state.retained one = some lock →
      state.retained another = some lock → one = another := fun hOne hOther =>
    sound.apart _ _ _ (retained_some hOne) (retained_some hOther)
  -- No other key has the lock that is handed out.
  have own : ∀ {otherKey}, state.retained otherKey = some (state.lockOf key) → otherKey = key := by
    intro otherKey isKept
    rcases lockOf_cases state key with ⟨kept, -⟩ | ⟨fresh, -⟩
    · exact keptApart isKept kept
    · have := keptOld isKept
      omega
  refine ⟨?_, ?_, ?_, sound.exclusive, sound.ascending⟩
  · intro request mem ref isRef
    have kept := sound.retained_of_ref mem isRef
    rcases eq_or_ne ref.1 key with same | different
    · subst same
      rw [withLock_locks_self, lockOf, kept]
      rfl
    · rw [withLock_locks_of_ne different, kept]
  · intro otherKey lock isLock
    have more : state.made ≤ (state.withLock key).made ∧
        state.lockOf key < (state.withLock key).made := by
      rcases lockOf_cases state key with ⟨kept, same⟩ | ⟨fresh, grown⟩
      · have := keptOld kept
        omega
      · omega
    rcases withLock_locks isLock with ⟨-, rfl⟩ | ⟨-, kept⟩
    · exact more.2
    · exact (keptOld kept).trans_le more.1
  · intro one another lock hOne hOther
    rcases withLock_locks hOne with ⟨rfl, rfl⟩ | ⟨-, keptOne⟩
    · rcases withLock_locks hOther with ⟨rfl, -⟩ | ⟨-, keptOther⟩
      · rfl
      · exact (own keptOther).symm
    · rcases withLock_locks hOther with ⟨rfl, rfl⟩ | ⟨-, keptOther⟩
      · exact own keptOne
      · exact keptApart keptOne keptOther

theorem Sound.enter (sound : Sound state) {keys : List Key} (ascends : keys.Pairwise (· < ·)) :
    Sound (state.enter keys) := by
  refine ⟨?_, sound.old, sound.apart, ?_, ?_⟩
  · intro request mem
    rcases mem_concat.mp mem with was | rfl
    · exact sound.mapped request was
    · simp [refs]
  · exact fun first second firstKey secondKey lock hFirst hSecond =>
      sound.exclusive first second firstKey secondKey lock (holds_enter.mp hFirst)
        (holds_enter.mp hSecond)
  · intro request mem
    rcases mem_concat.mp mem with was | rfl
    · exact sound.ascending request was
    · exact ascends

variable {after : KeyedLocks Key}

theorem Sound.ask (sound : Sound state) {keys : List Key} (isAfter : state.ask id keys = some after)
    (ascends : keys.Pairwise (· < ·)) : Sound after := by
  obtain ⟨found, rfl⟩ := ask_eq_some isAfter
  apply sound.put found
  · simp [refs]
  · simp
  · exact ascends

theorem take_eq_some (isAfter : state.take id = some after) :
    ∃ guards key left, state.requests[id]? = some ⟨guards, none, key :: left⟩ ∧
      after = (state.withLock key).put id ⟨guards, some (key, state.lockOf key), left⟩ := by
  rw [take] at isAfter
  split at isAfter
  · rename_i guards key left found
    exact ⟨guards, key, left, found, (Option.some.inj isAfter).symm⟩
  · cases isAfter

section

variable (sound : Sound state)
include sound

theorem Sound.take (isAfter : state.take id = some after) : Sound after := by
  obtain ⟨_, key, _, found, rfl⟩ := take_eq_some isAfter
  have mem := mem_of_getElem? found
  apply (sound.withLock key).put found
  · intro ref isRef
    rcases mem_concat.mp isRef with isGuard | rfl
    · exact (sound.withLock key).mapped _ mem ref (mem_append_left _ isGuard)
    · exact withLock_locks_self
  · exact fun ref isGuard => .inl isGuard
  · rw [take_keys]
    exact sound.ascending _ mem

theorem Sound.acquire (isAfter : state.acquire id = some after) : Sound after := by
  obtain ⟨_, _, _, _, found, free, rfl⟩ := acquire_eq_some isAfter
  have mem := mem_of_getElem? found
  apply sound.put found
  · rw [acquire_refs]
    exact sound.mapped _ mem
  · intro ref isGuard
    rcases mem_concat.mp isGuard with was | rfl
    · exact .inl was
    · exact .inr free
  · rw [acquire_keys]
    exact sound.ascending _ mem

theorem Sound.drop (id : Nat) : Sound (state.drop id) := by
  cases found : state.requests[id]? with
  | none =>
    rw [KeyedLocks.drop, KeyedLocks.put, set_eq_of_length_le (getElem?_eq_none_iff.mp found)]
    exact sound
  | some =>
    apply sound.put found
    · simp [refs]
    · simp
    · exact List.Pairwise.nil

theorem Sound.key_exclusive {lock otherLock : Nat} (holds : state.Holds id key lock)
    (otherHolds : state.Holds other key otherLock) : id = other := by
  obtain ⟨request, found, isGuard⟩ := holds
  obtain ⟨otherRequest, otherFound, isOtherGuard⟩ := otherHolds
  have mapped := sound.mapped request (mem_of_getElem? found) (key, lock)
    (mem_append_left _ isGuard)
  have otherMapped := sound.mapped otherRequest (mem_of_getElem? otherFound) (key, otherLock)
    (mem_append_left _ isOtherGuard)
  rw [mapped] at otherMapped
  cases otherMapped
  exact sound.exclusive id other key key lock ⟨request, found, isGuard⟩
    ⟨otherRequest, otherFound, isOtherGuard⟩

theorem Sound.waitedKey_lt {last : Nat} (edge : state.WaitsFor id other)
    (next : state.WaitsFor other last) : state.waitedKey id < state.waitedKey other := by
  obtain ⟨key, lock, heldKey, ⟨request, found, isWait⟩, otherRequest, otherFound, isGuard⟩ := edge
  obtain ⟨nextKey, _, _, ⟨_, sameFound, isNextWait⟩, -⟩ := next
  rw [otherFound] at sameFound
  cases sameFound
  have mapped := sound.mapped request (mem_of_getElem? found) (key, lock) (by simp [refs, isWait])
  have otherMapped := sound.mapped otherRequest (mem_of_getElem? otherFound) (heldKey, lock)
    (mem_append_left _ isGuard)
  obtain rfl := sound.apart _ _ _ mapped otherMapped
  have ascends := sound.ascending otherRequest (mem_of_getElem? otherFound)
  rw [LockRequest.keys, refs, isNextWait, map_append, append_assoc, pairwise_append] at ascends
  have less := ascends.2.2 key (mem_map_of_mem isGuard) nextKey (by simp)
  rw [waitedKey_of_waits ⟨request, found, isWait⟩,
    waitedKey_of_waits ⟨otherRequest, otherFound, isNextWait⟩]
  exact WithBot.coe_lt_coe.mpr less

theorem Sound.no_deadlock (waiting : Finset Nat) (some : waiting.Nonempty) :
    ¬ ∀ id ∈ waiting, ∃ other ∈ waiting, state.WaitsFor id other := by
  intro deadlocked
  obtain ⟨last, isLast, greatest⟩ := waiting.exists_max_image state.waitedKey some
  obtain ⟨other, isOther, edge⟩ := deadlocked last isLast
  obtain ⟨_, -, next⟩ := deadlocked other isOther
  exact absurd (greatest other isOther) (sound.waitedKey_lt edge next).not_ge

end

/-- A request goes on, or another one holds what it waits for. -/
theorem acquire_or_waitsFor (found : state.requests[id]? = some request)
    (ungranted : request.granted = false) :
    (state.take id).isSome ∨ (state.acquire id).isSome ∨
      ∃ other, state.WaitsFor id other := by
  obtain ⟨_, waits, left⟩ := request
  cases waits with
  | none =>
    cases left with
    | nil => cases ungranted
    | cons =>
      refine .inl ?_
      rw [KeyedLocks.take, found]
      rfl
  | some wait =>
    obtain ⟨key, lock⟩ := wait
    cases isHeld : state.held lock with
    | false =>
      refine .inr (.inl ?_)
      rw [KeyedLocks.acquire, found]
      simp [isHeld]
    | true =>
      obtain ⟨other, otherKey, holds⟩ := held_iff.mp isHeld
      exact .inr (.inr ⟨other, key, lock, otherKey, ⟨_, found, rfl⟩, holds⟩)

end Sound

end KeyedLocks

end Library
