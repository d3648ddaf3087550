import PiRelay.AgentTools.FileTree
import PiRelay.Library.KeyedLocks
import PiRelay.Library.Machine
import PiRelay.Library.Ordered

/-! Calls of `FileMutationLocks::lock_paths` on one set of locks, while the holders of guards
create and delete files. -/
namespace PiRelay.AgentTools

open Library KeyedLocks List Option

inductive LockPhase where
  | resolving
  | locking
  | dropped
deriving DecidableEq

/-- A call and what it has made of its paths. -/
structure LockCall where
  paths : List PathBuf
  unresolved : List PathBuf
  keys : List PathBuf
  phase : LockPhase

structure MutationState where
  tree : FileTree
  locks : KeyedLocks PathBuf
  calls : List LockCall

/-- Each step is atomic: a path is resolved by one query, and the map of locks is read and
changed under its own lock. A call or its guard may be dropped at any time. -/
inductive MutationAction where
  | lockPaths (paths : List PathBuf)
  | resolve (id : Nat)
  | request (id : Nat)
  | take (id : Nat)
  | acquire (id : Nat)
  | drop (id : Nat)
  | create (id : Nat) (path : PathBuf)
  | delete (id : Nat) (path : PathBuf)

namespace MutationState

variable (state : MutationState)

/-- The call has returned its guard, and the guard is not dropped. -/
def guarding (id : Nat) : Bool :=
  match state.calls[id]?, state.locks.requests[id]? with
  | some call, some request => call.phase == .locking && request.granted
  | _, _ => false

def step : MutationAction → Option MutationState
  | .lockPaths paths =>
    some
      { state with
        locks := state.locks.enter []
        calls := state.calls ++ [⟨paths, paths, [], .resolving⟩] }
  | .resolve id =>
    match state.calls[id]? with
    | some ⟨paths, path :: unresolved, keys, .resolving⟩ =>
      let call := ⟨paths, unresolved, keys ++ [state.tree.mutationLockKey path], .resolving⟩
      some { state with calls := state.calls.set id call }
    | _ => none
  | .request id =>
    match state.calls[id]? with
    | some ⟨paths, [], keys, .resolving⟩ =>
      (state.locks.ask id (ascendingKeys keys)).map fun locks =>
        { state with locks, calls := state.calls.set id ⟨paths, [], keys, .locking⟩ }
    | _ => none
  | .take id => (state.locks.take id).map fun locks => { state with locks }
  | .acquire id => (state.locks.acquire id).map fun locks => { state with locks }
  | .drop id =>
    match state.calls[id]? with
    | some call =>
      some
        { state with
          locks := state.locks.drop id
          calls := state.calls.set id { call with phase := .dropped } }
    | none => none
  | .create id path =>
    match state.tree.locate path with
    | some location =>
      if state.guarding id && state.tree.writable location then
        some { state with tree := state.tree.withFile location }
      else none
    | none => none
  | .delete id path =>
    match state.tree.entryOf path with
    | some location =>
      if state.guarding id && !state.tree.isDir location then
        some { state with tree := state.tree.without location }
      else none
    | none => none

theorem call_of_guarding {id : Nat} (guards : state.guarding id) :
    ∃ call, state.calls[id]? = some call := by
  rw [guarding] at guards
  split at guards
  · rename_i call request isCall isRequest
    exact ⟨call, isCall⟩
  · cases guards

/-- Two calls have a file in common. -/
def SharesFile (id other : Nat) : Prop :=
  ∃ call otherCall, state.calls[id]? = some call ∧ state.calls[other]? = some otherCall ∧
    ∃ path ∈ call.paths, ∃ otherPath ∈ otherCall.paths, ∃ file,
      state.tree.locate path = some file ∧ state.tree.locate otherPath = some file

/-- A path is resolved while it is settled, and no symbolic link is deleted. -/
def SettledStep : MutationAction → Prop
  | .resolve id => ∀ call ∈ state.calls[id]?, ∀ path ∈ call.unresolved.head?,
      state.tree.Settled path
  | .delete _ path => ∀ location ∈ state.tree.entryOf path, state.tree.isLink location = false
  | _ => True

instance (action : MutationAction) : Decidable (state.SettledStep action) := by
  cases action <;> unfold SettledStep <;> infer_instance

end MutationState

def mutationMachine : Machine MutationState MutationAction :=
  .ofSteps (fun state => state.locks = KeyedLocks.empty ∧ state.calls = []) MutationState.step

/-- What the request of a call is for. -/
structure Serves (request : LockRequest PathBuf) (call : LockCall) : Prop where
  idle : call.phase = .resolving → request = {}
  locking : call.phase = .locking →
    call.unresolved = [] ∧ request.keys = ascendingKeys call.keys

/-- Each call has its request. -/
structure Aligned (state : MutationState) : Prop where
  sound : state.locks.Sound
  length : state.locks.requests.length = state.calls.length
  serves : ∀ (id : Nat) call request, state.calls[id]? = some call →
    state.locks.requests[id]? = some request → Serves request call

/-- What a step of the locks alone may do: one request goes on with the keys it has. -/
structure GoesOn (before after : KeyedLocks PathBuf) : Prop where
  sound : after.Sound
  length : after.requests.length = before.requests.length
  keys : ∀ (id : Nat) request, after.requests[id]? = some request →
    before.requests[id]? = some request ∨
      ∃ earlier, before.requests[id]? = some earlier ∧ earlier ≠ {} ∧ request.keys = earlier.keys

variable {locks : KeyedLocks PathBuf} {id : Nat} {state : MutationState} {call : LockCall}

theorem goesOn_put {relocked : KeyedLocks PathBuf} {before after : LockRequest PathBuf}
    (sound : (relocked.put id after).Sound) (same : relocked.requests = locks.requests)
    (found : locks.requests[id]? = some before) (busy : before ≠ {})
    (keys : after.keys = before.keys) :
    GoesOn locks (relocked.put id after) where
  sound := sound
  length := by simp [put, same]
  keys := by
    intro other request isRequest
    rw [put, same] at isRequest
    rcases getElem?_set_cases isRequest with ⟨rfl, rfl⟩ | ⟨-, was⟩
    · exact .inr ⟨before, found, busy, keys⟩
    · exact .inl was

theorem goesOn_take {after : KeyedLocks PathBuf} (sound : locks.Sound)
    (isAfter : locks.take id = some after) : GoesOn locks after := by
  have soundAfter := sound.take isAfter
  obtain ⟨_, _, _, found, rfl⟩ := take_eq_some isAfter
  exact goesOn_put soundAfter rfl found (by simp) (take_keys ..)

theorem goesOn_acquire {after : KeyedLocks PathBuf} (sound : locks.Sound)
    (isAfter : locks.acquire id = some after) : GoesOn locks after := by
  have soundAfter := sound.acquire isAfter
  obtain ⟨_, _, _, _, found, -, rfl⟩ := acquire_eq_some isAfter
  exact goesOn_put soundAfter rfl found (by simp) (acquire_keys ..)

section

variable (aligned : Aligned state)
include aligned

theorem Aligned.goesOn (goesOn : GoesOn state.locks locks) :
    Aligned { state with locks } where
  sound := goesOn.sound
  length := goesOn.length.trans aligned.length
  serves := by
    intro id call request isCall isRequest
    rcases goesOn.keys id request isRequest with same | ⟨earlier, wasEarlier, busy, keys⟩
    · exact aligned.serves id call request isCall same
    · have served := aligned.serves id call earlier isCall wasEarlier
      constructor
      · exact fun resolving => absurd (served.idle resolving) busy
      · exact fun locking => ⟨(served.locking locking).1, keys.trans (served.locking locking).2⟩

theorem Aligned.put (sound : locks.Sound)
    (length : locks.requests.length = state.locks.requests.length)
    (others : ∀ other, other ≠ id → locks.requests[other]? = state.locks.requests[other]?)
    (serves : ∀ request, locks.requests[id]? = some request → Serves request call) :
    Aligned { state with locks, calls := state.calls.set id call } where
  sound := sound
  length := by simpa using length.trans aligned.length
  serves := by
    intro other otherCall request isCall isRequest
    rcases getElem?_set_cases isCall with ⟨rfl, rfl⟩ | ⟨different, was⟩
    · exact serves request isRequest
    · rw [others other different] at isRequest
      exact aligned.serves other otherCall request was isRequest

theorem Aligned.lockPaths (paths : List PathBuf) :
    Aligned { state with
      locks := state.locks.enter []
      calls := state.calls ++ [⟨paths, paths, [], .resolving⟩] } where
  sound := aligned.sound.enter List.Pairwise.nil
  length := by simp [enter, aligned.length]
  serves := by
    intro id call request isCall isRequest
    rw [enter, getElem?_append, aligned.length] at isRequest
    rcases getElem?_concat_cases isCall with was | ⟨rfl, rfl⟩
    · rw [if_pos (List.getElem?_eq_some_iff.mp was).1] at isRequest
      exact aligned.serves id call request was isRequest
    · rw [if_neg (Nat.lt_irrefl _)] at isRequest
      obtain rfl : request = {} := by simpa using mem_of_getElem? isRequest
      constructor
      · exact fun _ => rfl
      · simp

theorem Aligned.step {after : MutationState} {action : MutationAction}
    (isStep : state.step action = some after) : Aligned after := by
  cases action with
  | lockPaths paths =>
    cases isStep
    exact aligned.lockPaths paths
  | resolve id =>
    rw [MutationState.step] at isStep
    split at isStep
    · rename_i paths path unresolved keys found
      cases isStep
      apply aligned.put aligned.sound rfl (fun _ _ => rfl)
      intro request isRequest
      have served := aligned.serves id _ request found isRequest
      constructor
      · exact fun _ => served.idle rfl
      · simp
    · cases isStep
  | request =>
    rw [MutationState.step] at isStep
    split at isStep
    · rename_i paths keys found
      obtain ⟨locks, isAsked, rfl⟩ := map_eq_some_iff.mp isStep
      have sound := aligned.sound.ask isAsked (ascendingKeys_pairwise keys)
      obtain ⟨idle, rfl⟩ := KeyedLocks.ask_eq_some isAsked
      apply aligned.put sound (by simp [KeyedLocks.put])
      · intro other different
        exact getElem?_set_ne (Ne.symm different)
      · intro request isRequest
        have isAsking : request = { left := ascendingKeys keys } := by
          rw [KeyedLocks.put, getElem?_set_self (List.getElem?_eq_some_iff.mp idle).1] at isRequest
          exact (Option.some.inj isRequest).symm
        subst isAsking
        constructor
        · simp
        · exact fun _ => ⟨rfl, rfl⟩
    · cases isStep
  | take =>
    obtain ⟨locks, isAfter, rfl⟩ := map_eq_some_iff.mp isStep
    exact aligned.goesOn (goesOn_take aligned.sound isAfter)
  | acquire =>
    obtain ⟨locks, isAfter, rfl⟩ := map_eq_some_iff.mp isStep
    exact aligned.goesOn (goesOn_acquire aligned.sound isAfter)
  | drop id =>
    rw [MutationState.step] at isStep
    split at isStep
    · rename_i call found
      cases isStep
      apply aligned.put (aligned.sound.drop id) (by simp [KeyedLocks.drop, KeyedLocks.put])
      · intro other different
        exact getElem?_set_ne (Ne.symm different)
      · intro request isRequest
        constructor
        · simp
        · simp
    · cases isStep
  | create | delete =>
    rw [MutationState.step] at isStep
    split at isStep
    · split at isStep
      · cases isStep
        exact ⟨aligned.sound, aligned.length, aligned.serves⟩
      · cases isStep
    · cases isStep

end

theorem aligned_of_reaches (reaches : mutationMachine.Reaches state) : Aligned state := by
  apply reaches.invariant
  · rintro state ⟨noLocks, noCalls⟩
    refine ⟨noLocks ▸ empty_sound, ?_, ?_⟩
    · rw [noLocks, noCalls]
      rfl
    · intro id call request isCall
      rw [noCalls] at isCall
      cases isCall
  · exact fun state action after _ aligned isStep => aligned.step isStep

/-- A call can move on, or it waits for another one. -/
theorem Aligned.moves_or_waits (aligned : Aligned state) (isCall : state.calls[id]? = some call)
    (live : call.phase ≠ .dropped) (unreturned : state.guarding id = false) :
    (∃ action ∈ [MutationAction.resolve id, .request id, .take id, .acquire id],
      (state.step action).isSome) ∨ ∃ other, state.locks.WaitsFor id other := by
  obtain ⟨_, unresolved, _, phase⟩ := call
  obtain ⟨request, isRequest⟩ : ∃ request, state.locks.requests[id]? = some request := by
    have inCalls := (List.getElem?_eq_some_iff.mp isCall).1
    rw [← aligned.length] at inCalls
    exact ⟨_, getElem?_eq_getElem inCalls⟩
  have served := aligned.serves id _ request isCall isRequest
  cases phase with
  | resolving =>
    refine .inl ?_
    cases unresolved with
    | nil =>
      have idle := served.idle rfl
      subst idle
      refine ⟨.request id, by simp, ?_⟩
      simp [MutationState.step, isCall, ask, isRequest]
    | cons => exact ⟨.resolve id, by simp, by simp [MutationState.step, isCall]⟩
  | locking =>
    have ungranted : request.granted = false := by
      simpa [MutationState.guarding, isCall, isRequest] using unreturned
    rcases acquire_or_waitsFor isRequest ungranted with takes | acquires | waits
    · exact .inl ⟨.take id, by simp, by simpa [MutationState.step] using takes⟩
    · exact .inl ⟨.acquire id, by simp, by simpa [MutationState.step] using acquires⟩
    · exact .inr waits
  | dropped => exact absurd rfl live

/-- Every path that a call has resolved has the real path of its file among the keys. -/
def SettledKeys (state : MutationState) : Prop :=
  ∀ call ∈ state.calls, ∀ path ∈ call.paths, path ∈ call.unresolved ∨
    ∀ file, state.tree.locate path = some file → absolute file ∈ call.keys

section

variable (settled : SettledKeys state)
include settled

theorem SettledKeys.put (own : ∀ path ∈ call.paths, path ∈ call.unresolved ∨
      ∀ file, state.tree.locate path = some file → absolute file ∈ call.keys) :
    SettledKeys { state with locks, calls := state.calls.set id call } := by
  intro other mem
  rcases mem_or_eq_of_mem_set mem with was | rfl
  · exact settled other was
  · exact own

theorem SettledKeys.retree {tree : FileTree} (same : tree.SameLinks state.tree) :
    SettledKeys { state with tree } := by
  intro call mem path isPath
  rcases settled call mem path isPath with unresolved | keyed
  · exact .inl unresolved
  · exact .inr fun file isFile => keyed file (same.locate path ▸ isFile)

theorem SettledKeys.resolve {paths unresolved keys : List PathBuf} {path : PathBuf}
    (found : state.calls[id]? = some ⟨paths, path :: unresolved, keys, .resolving⟩)
    (isSettled : state.tree.Settled path) :
    SettledKeys { state with
      calls := state.calls.set id
        ⟨paths, unresolved, keys ++ [state.tree.mutationLockKey path], .resolving⟩ } := by
  apply settled.put
  intro other isPath
  rcases settled _ (mem_of_getElem? found) other isPath with waiting | keyed
  · rcases mem_cons.mp waiting with rfl | later
    · refine .inr fun file isFile => ?_
      rw [isSettled.mutationLockKey isFile]
      exact mem_append_right _ (.head _)
    · exact .inl later
  · exact .inr fun file isFile => mem_append_left _ (keyed file isFile)

theorem SettledKeys.step {after : MutationState} {action : MutationAction}
    (isSettled : state.SettledStep action) (isStep : state.step action = some after) :
    SettledKeys after := by
  cases action with
  | lockPaths =>
    cases isStep
    intro call mem path isPath
    rcases Library.mem_concat.mp mem with was | rfl
    · exact settled call was path isPath
    · exact .inl isPath
  | resolve =>
    rw [MutationState.step] at isStep
    split at isStep
    · rename_i paths path unresolved keys found
      cases isStep
      exact settled.resolve found (isSettled _ found path rfl)
    · cases isStep
  | request =>
    rw [MutationState.step] at isStep
    split at isStep
    · rename_i paths keys found
      obtain ⟨locks, -, rfl⟩ := map_eq_some_iff.mp isStep
      have own := settled _ (mem_of_getElem? found)
      exact settled.put own
    · cases isStep
  | take | acquire =>
    obtain ⟨locks, isAfter, rfl⟩ := map_eq_some_iff.mp isStep
    exact settled
  | drop =>
    rw [MutationState.step] at isStep
    split at isStep
    · rename_i call found
      cases isStep
      have own := settled call (mem_of_getElem? found)
      exact settled.put own
    · cases isStep
  | create =>
    rw [MutationState.step] at isStep
    split at isStep
    · split at isStep
      · rename_i location isLocation mayCreate
        cases isStep
        rw [Bool.and_eq_true] at mayCreate
        exact settled.retree (FileTree.withFile_sameLinks mayCreate.2)
      · cases isStep
    · cases isStep
  | delete =>
    rw [MutationState.step] at isStep
    split at isStep
    · split at isStep
      · rename_i location isLocation mayDelete
        cases isStep
        exact settled.retree (FileTree.without_sameLinks (isSettled location isLocation))
      · cases isStep
    · cases isStep

end

theorem settledKeys_of_reaches
    (reaches : (mutationMachine.guarded MutationState.SettledStep).Reaches state) :
    SettledKeys state := by
  apply reaches.invariant
  · rintro state ⟨-, noCalls⟩ _ mem
    rw [noCalls] at mem
    cases mem
  · exact fun state action after _ settled isStep => settled.step isStep.1 isStep.2

theorem Aligned.guarded (aligned : Aligned state) (isCall : state.calls[id]? = some call)
    (guards : state.guarding id) :
    call.unresolved = [] ∧ ∀ key ∈ call.keys, ∃ lock, state.locks.Holds id key lock := by
  rw [MutationState.guarding, isCall] at guards
  cases isRequest : state.locks.requests[id]? with
  | none =>
    rw [isRequest] at guards
    cases guards
  | some request =>
    rw [isRequest] at guards
    rw [Bool.and_eq_true, beq_iff_eq] at guards
    obtain ⟨resolved, keys⟩ := (aligned.serves id call request isCall isRequest).locking guards.1
    obtain ⟨guardList, waits, left⟩ := request
    obtain ⟨rfl, rfl⟩ : waits = none ∧ left = [] := by
      simpa [LockRequest.granted] using guards.2
    refine ⟨resolved, fun key isKey => ?_⟩
    have listed : key ∈ guardList.map Prod.fst := by
      have inKeys := mem_ascendingKeys.mpr isKey
      rw [← keys] at inKeys
      simpa [LockRequest.keys, LockRequest.refs] using inKeys
    obtain ⟨⟨_, lock⟩, isGuard, rfl⟩ := mem_map.mp listed
    exact ⟨lock, _, isRequest, isGuard⟩

def sampleTree : FileTree where
  nodes location :=
    [([], Node.dir), (["ws"], .dir), (["ws", "a.txt"], .file), (["ws", "real"], .dir),
      (["ws", "link"], .symlink [.rootDir, .normal "ws", .normal "real"])].lookup location
  workingDir := ["ws"]

def sampleStart : MutationState := ⟨sampleTree, KeyedLocks.empty, []⟩

/-- A call goes on until it has its guard. -/
def lockOne (id : Nat) (path : PathBuf) : List MutationAction :=
  [.lockPaths [path], .resolve id, .request id, .take id, .acquire id]

def linkedPath : PathBuf := [.rootDir, .normal "ws", .normal "link", .normal "new.txt"]

/-- The second call comes after the first one has created the file. -/
def linkedRun : List MutationAction :=
  lockOne 0 linkedPath ++ [.create 0 linkedPath] ++ lockOne 1 linkedPath

/-- Another spelling of the file in the working directory. -/
def roundaboutPath : PathBuf :=
  [.curDir, .normal "real", .parentDir, .normal "a.txt"]

def settledRun : List MutationAction :=
  lockOne 0 [.rootDir, .normal "ws", .normal "a.txt"] ++
    [.lockPaths [roundaboutPath], .resolve 1, .request 1, .take 1]

end PiRelay.AgentTools
