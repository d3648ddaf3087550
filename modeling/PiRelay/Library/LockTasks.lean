import Mathlib.Order.Basic
import PiRelay.Library.Machine

/-! Tasks that share locks. A task runs procedures; a procedure is the tree of what it does
next, with a branch for each answer it can get. It may wait for a lock or only try it, and
what it still holds when it returns it lets go of. To prove something of every interleaving,
one says when a procedure may be called and when a lock may be waited for, and checks the
body of each procedure against that, alone. -/
namespace Library

/-- What a task does. A change of the task's own data tells which way to go on. -/
inductive LockProgram (Lock Locals Query : Type) (Reply : Query → Type) (Proc : Type) where
  | done (ok : Bool)
  | acquire (lock : Lock) (next : LockProgram Lock Locals Query Reply Proc)
  | tryAcquire (lock : Lock) (next : Bool → LockProgram Lock Locals Query Reply Proc)
  | release (lock : Lock) (next : LockProgram Lock Locals Query Reply Proc)
  | locally (change : Locals → Bool × Locals)
      (next : Bool → LockProgram Lock Locals Query Reply Proc)
  | ask (query : Query) (next : Reply query → LockProgram Lock Locals Query Reply Proc)
  | call (proc : Proc) (next : Bool → LockProgram Lock Locals Query Reply Proc)

/-- A call that waits for another one to return. -/
structure LockCaller (Lock Locals Query : Type) (Reply : Query → Type) (Proc : Type) where
  proc : Proc
  own : List Lock
  next : Bool → LockProgram Lock Locals Query Reply Proc

/-- A task in the middle of a procedure. -/
structure LockTask (Lock Locals Query : Type) (Reply : Query → Type) (Proc : Type) where
  proc : Proc
  own : List Lock := []
  code : LockProgram Lock Locals Query Reply Proc
  callers : List (LockCaller Lock Locals Query Reply Proc) := []
  locals : Locals

/-- The procedures, what the store can answer and how it changes by that, the procedures a
task can begin with and the data it begins with. -/
structure LockSystem (Lock Locals Query : Type) (Reply : Query → Type) (Proc Store : Type) where
  body : Proc → LockProgram Lock Locals Query Reply Proc
  answers : Store → (query : Query) → Reply query → Store → Prop
  begins : Proc → Prop
  fresh : Locals

structure LockState (Lock Locals Query : Type) (Reply : Query → Type) (Proc Store : Type) where
  store : Store
  tasks : Nat → Option (LockTask Lock Locals Query Reply Proc)

/-- A task begins, moves, or is given up with all it holds. -/
inductive LockLabel (Proc : Type) where
  | begin (id : Nat) (proc : Proc)
  | move (id : Nat)
  | abort (id : Nat)

variable {Lock Locals Query Proc Store World : Type} {Reply : Query → Type}

namespace LockTask

def outer (callers : List (LockCaller Lock Locals Query Reply Proc)) : List Lock :=
  callers.flatMap (·.own)

def procs (callers : List (LockCaller Lock Locals Query Reply Proc)) : List Proc :=
  callers.map (·.proc)

def held (task : LockTask Lock Locals Query Reply Proc) : List Lock :=
  task.own ++ outer task.callers

end LockTask

namespace LockState

variable (state : LockState Lock Locals Query Reply Proc Store)

def Holds (id : Nat) (lock : Lock) : Prop :=
  ∃ task, state.tasks id = some task ∧ lock ∈ task.held

def Free (lock : Lock) : Prop := ∀ id, ¬state.Holds id lock

def Waits (id : Nat) (lock : Lock) : Prop :=
  ∃ task next, state.tasks id = some task ∧ task.code = .acquire lock next

/-- The task waits for a lock that the other one holds. -/
def WaitsFor (id other : Nat) : Prop := ∃ lock, state.Waits id lock ∧ state.Holds other lock

def put (id : Nat) (task : Option (LockTask Lock Locals Query Reply Proc)) :
    LockState Lock Locals Query Reply Proc Store :=
  { state with tasks := Function.update state.tasks id task }

end LockState

open LockState List

namespace LockSystem

variable [DecidableEq Lock] (system : LockSystem Lock Locals Query Reply Proc Store)

/-- One move of one task, with the store before and after it. -/
inductive Move (free : Lock → Prop) : Store → LockTask Lock Locals Query Reply Proc →
    Store → Option (LockTask Lock Locals Query Reply Proc) → Prop where
  | acquire {store proc own lock next callers locals} (isFree : free lock) :
      Move free store ⟨proc, own, .acquire lock next, callers, locals⟩
        store (some ⟨proc, lock :: own, next, callers, locals⟩)
  | got {store proc own lock next callers locals} (isFree : free lock) :
      Move free store ⟨proc, own, .tryAcquire lock next, callers, locals⟩
        store (some ⟨proc, lock :: own, next true, callers, locals⟩)
  | missed {store proc own lock next callers locals} (isHeld : ¬free lock) :
      Move free store ⟨proc, own, .tryAcquire lock next, callers, locals⟩
        store (some ⟨proc, own, next false, callers, locals⟩)
  | release {store proc own lock next callers locals} :
      Move free store ⟨proc, own, .release lock next, callers, locals⟩
        store (some ⟨proc, own.erase lock, next, callers, locals⟩)
  | locally {store proc own change next callers locals} :
      Move free store ⟨proc, own, .locally change next, callers, locals⟩
        store (some ⟨proc, own, next (change locals).1, callers, (change locals).2⟩)
  | ask {store proc own query next callers locals reply after}
      (answered : system.answers store query reply after) :
      Move free store ⟨proc, own, .ask query next, callers, locals⟩
        after (some ⟨proc, own, next reply, callers, locals⟩)
  | call {store proc own callee next callers locals} :
      Move free store ⟨proc, own, .call callee next, callers, locals⟩
        store (some ⟨callee, [], system.body callee, ⟨proc, own, next⟩ :: callers, locals⟩)
  | back {store proc own ok caller callers locals} :
      Move free store ⟨proc, own, .done ok, caller :: callers, locals⟩
        store (some ⟨caller.proc, caller.own, caller.next ok, callers, locals⟩)
  | finish {store proc own ok locals} :
      Move free store ⟨proc, own, .done ok, [], locals⟩ store none

inductive Step : LockState Lock Locals Query Reply Proc Store → LockLabel Proc →
    LockState Lock Locals Query Reply Proc Store → Prop where
  | begin {state id proc} (unused : state.tasks id = none) (begins : system.begins proc) :
      Step state (.begin id proc)
        (state.put id (some ⟨proc, [], system.body proc, [], system.fresh⟩))
  | move {state id task store after} (running : state.tasks id = some task)
      (moves : system.Move state.Free state.store task store after) :
      Step state (.move id) { state.put id after with store }
  | abort {state id} : Step state (.abort id) (state.put id none)

/-- No task is under way at first. -/
def machine (initial : Store → Prop) :
    Machine (LockState Lock Locals Query Reply Proc Store) (LockLabel Proc) where
  initial := fun state => initial state.store ∧ ∀ id, state.tasks id = none
  step := system.Step

end LockSystem

/-- When a lock may be waited for, when a query may be asked and what its answer tells, and
when a procedure may be called: by which procedures, holding what, and with which data. What
is known of the store only grows, and what may be done may still be done when more is known. -/
structure LockRules (Lock Locals Query : Type) (Reply : Query → Type) (Proc World : Type)
    [Preorder World] where
  may : World → List Lock → Lock → Prop
  asks : World → Query → Prop
  told : World → (query : Query) → Reply query → Prop
  admits : World → List Proc → List Lock → Locals → Proc → Prop
  may_mono : ∀ {world later held lock}, world ≤ later → may world held lock → may later held lock
  asks_mono : ∀ {world later query}, world ≤ later → asks world query → asks later query
  admits_mono : ∀ {world later callers held locals proc}, world ≤ later →
    admits world callers held locals proc → admits later callers held locals proc

variable [Preorder World] [DecidableEq Lock]

/-- The program keeps to the rules in a call with the given stack, the locks held below it
and the data it was entered with; it returns with the data it was entered with. -/
def Obeys (rules : LockRules Lock Locals Query Reply Proc World) (stack : List Proc)
    (outer : List Lock) (entry : Locals) :
    LockProgram Lock Locals Query Reply Proc → List Lock → Locals → World → Prop
  | .done _, _, locals, _ => locals = entry
  | .acquire lock next, own, locals, world =>
    rules.may world (own ++ outer) lock ∧
      Obeys rules stack outer entry next (lock :: own) locals world
  | .tryAcquire lock next, own, locals, world =>
    Obeys rules stack outer entry (next true) (lock :: own) locals world ∧
      Obeys rules stack outer entry (next false) own locals world
  | .release lock next, own, locals, world =>
    Obeys rules stack outer entry next (own.erase lock) locals world
  | .locally change next, own, locals, world =>
    Obeys rules stack outer entry (next (change locals).1) own (change locals).2 world
  | .ask query next, own, locals, world =>
    rules.asks world query ∧
      ∀ reply later, world ≤ later → rules.told later query reply →
        Obeys rules stack outer entry (next reply) own locals later
  | .call proc next, own, locals, world =>
    rules.admits world stack (own ++ outer) locals proc ∧
      ∀ ok, Obeys rules stack outer entry (next ok) own locals world

theorem Obeys.mono {rules : LockRules Lock Locals Query Reply Proc World} {stack : List Proc}
    {outer : List Lock} {entry : Locals} {program : LockProgram Lock Locals Query Reply Proc}
    {own : List Lock} {locals : Locals} {world later : World} (grows : world ≤ later)
    (obeys : Obeys rules stack outer entry program own locals world) :
    Obeys rules stack outer entry program own locals later := by
  induction program generalizing own locals world with
  | done => exact obeys
  | acquire _ _ ih => exact ⟨rules.may_mono grows obeys.1, ih grows obeys.2⟩
  | tryAcquire _ _ ih => exact ⟨ih true grows obeys.1, ih false grows obeys.2⟩
  | release _ _ ih => exact ih grows obeys
  | locally _ _ ih => exact ih _ grows obeys
  | ask =>
    refine ⟨rules.asks_mono grows obeys.1, fun reply latest further told => ?_⟩
    exact obeys.2 reply latest (grows.trans further) told
  | call _ _ ih => exact ⟨rules.admits_mono grows obeys.1, fun ok => ih ok grows (obeys.2 ok)⟩

/-- The rules hold of a system: every answer keeps an invariant of the store and tells what
it is said to tell, and every body keeps to the rules wherever its procedure is admitted. -/
structure Ruled (rules : LockRules Lock Locals Query Reply Proc World)
    (system : LockSystem Lock Locals Query Reply Proc Store) (view : Store → World)
    (invariant : Store → Prop) : Prop where
  answers : ∀ {store query reply after}, invariant store → rules.asks (view store) query →
    system.answers store query reply after →
      invariant after ∧ view store ≤ view after ∧ rules.told (view after) query reply
  begins : ∀ {world proc}, system.begins proc → rules.admits world [] [] system.fresh proc
  bodies : ∀ {world stack held locals proc}, rules.admits world stack held locals proc →
    Obeys rules (proc :: stack) held locals (system.body proc) [] locals world

open LockTask (outer procs)

section Interleavings

variable {rules : LockRules Lock Locals Query Reply Proc World}
  {system : LockSystem Lock Locals Query Reply Proc Store} {view : Store → World}
  {invariant : Store → Prop}

/-- The calls that wait keep to the rules once they go on, with the data of their callee. -/
def CallersObey (rules : LockRules Lock Locals Query Reply Proc World) (world : World) :
    List (LockCaller Lock Locals Query Reply Proc) → Locals → Prop
  | [], _ => True
  | caller :: callers, locals =>
    ∃ entry, rules.admits world (procs callers) (outer callers) entry caller.proc ∧
      (∀ ok, Obeys rules (caller.proc :: procs callers) (outer callers) entry
        (caller.next ok) caller.own locals world) ∧
      CallersObey rules world callers entry

def TaskObeys (rules : LockRules Lock Locals Query Reply Proc World) (world : World)
    (task : LockTask Lock Locals Query Reply Proc) : Prop :=
  ∃ entry, rules.admits world (procs task.callers) (outer task.callers) entry task.proc ∧
    Obeys rules (task.proc :: procs task.callers) (outer task.callers) entry task.code task.own
      task.locals world ∧
    CallersObey rules world task.callers entry

variable {world : World} {task : LockTask Lock Locals Query Reply Proc} {store : Store}
    {after : Option (LockTask Lock Locals Query Reply Proc)} {lock : Lock}
    {state : LockState Lock Locals Query Reply Proc Store} {id : Nat}

theorem CallersObey.mono {callers : List (LockCaller Lock Locals Query Reply Proc)}
    {locals : Locals} {later : World} (grows : world ≤ later)
    (obey : CallersObey rules world callers locals) : CallersObey rules later callers locals := by
  induction callers generalizing locals with
  | nil => trivial
  | cons _ _ ih =>
    obtain ⟨entry, admitted, resumes, below⟩ := obey
    exact ⟨entry, rules.admits_mono grows admitted, fun ok => (resumes ok).mono grows, ih below⟩

theorem TaskObeys.mono {later : World} (grows : world ≤ later) (obeys : TaskObeys rules world task) :
    TaskObeys rules later task := by
  obtain ⟨entry, admitted, goesOn, below⟩ := obeys
  exact ⟨entry, rules.admits_mono grows admitted, goesOn.mono grows, below.mono grows⟩

theorem Ruled.begin_obeys (ruled : Ruled rules system view invariant) {proc : Proc}
    (begins : system.begins proc) :
    TaskObeys rules world ⟨proc, [], system.body proc, [], system.fresh⟩ := by
  have admitted : rules.admits world [] [] system.fresh proc := ruled.begins begins
  exact ⟨system.fresh, admitted, ruled.bodies admitted, trivial⟩

/-- What one move of a task does: the store keeps its invariant and what is known of it, and
the task keeps to the rules. -/
theorem Ruled.move_obeys (ruled : Ruled rules system view invariant) {free : Lock → Prop}
    {storeAfter : Store} (moves : system.Move free store task storeAfter after)
    (keeps : invariant store) (obeys : TaskObeys rules (view store) task) :
    invariant storeAfter ∧ view store ≤ view storeAfter ∧
      ∀ moved ∈ after, TaskObeys rules (view storeAfter) moved := by
  obtain ⟨entry, admitted, goesOn, below⟩ := obeys
  cases moves with
  | acquire | missed =>
    refine ⟨keeps, le_rfl, ?_⟩
    rintro _ ⟨⟩
    exact ⟨entry, admitted, goesOn.2, below⟩
  | got =>
    refine ⟨keeps, le_rfl, ?_⟩
    rintro _ ⟨⟩
    exact ⟨entry, admitted, goesOn.1, below⟩
  | release | locally =>
    refine ⟨keeps, le_rfl, ?_⟩
    rintro _ ⟨⟩
    exact ⟨entry, admitted, goesOn, below⟩
  | ask answered =>
    obtain ⟨kept, grows, told⟩ := ruled.answers keeps goesOn.1 answered
    refine ⟨kept, grows, ?_⟩
    rintro _ ⟨⟩
    exact ⟨entry, rules.admits_mono grows admitted, goesOn.2 _ _ grows told, below.mono grows⟩
  | call =>
    refine ⟨keeps, le_rfl, ?_⟩
    rintro _ ⟨⟩
    -- The caller goes on with the data its callee was entered with.
    exact ⟨_, goesOn.1, ruled.bodies goesOn.1, entry, admitted, goesOn.2, below⟩
  | back =>
    refine ⟨keeps, le_rfl, ?_⟩
    rintro _ ⟨⟩
    obtain ⟨callerEntry, callerAdmitted, resumes, rest⟩ := below
    have returned := goesOn
    subst returned
    exact ⟨callerEntry, callerAdmitted, resumes _, rest⟩
  | finish =>
    refine ⟨keeps, le_rfl, ?_⟩
    rintro _ ⟨⟩

/-- A move takes free locks only. -/
theorem LockSystem.Move.held_subset {free : Lock → Prop} {storeAfter : Store}
    {moved : LockTask Lock Locals Query Reply Proc}
    (moves : system.Move free store task storeAfter (some moved)) (holds : lock ∈ moved.held) :
    lock ∈ task.held ∨ free lock := by
  generalize hAfter : some moved = after at moves
  cases moves with
  | acquire isFree | got isFree =>
    cases hAfter
    rcases mem_cons.mp holds with rfl | earlier
    · exact .inr isFree
    · exact .inl earlier
  | release =>
    cases hAfter
    rcases mem_append.mp holds with own | below
    · exact .inl (mem_append_left _ (mem_of_mem_erase own))
    · exact .inl (mem_append_right _ below)
  | call =>
    cases hAfter
    simpa [LockTask.held, outer] using Or.inl holds
  | back =>
    cases hAfter
    refine .inl (mem_append_right _ ?_)
    simpa [LockTask.held, outer] using holds
  | finish => cases hAfter
  | _ => cases hAfter; exact .inl holds

/-- The invariant of every interleaving. -/
structure Kept (rules : LockRules Lock Locals Query Reply Proc World) (view : Store → World)
    (invariant : Store → Prop) (state : LockState Lock Locals Query Reply Proc Store) : Prop where
  store : invariant state.store
  tasks : ∀ id task, state.tasks id = some task → TaskObeys rules (view state.store) task
  apart : ∀ id other lock, state.Holds id lock → state.Holds other lock → id = other

omit [DecidableEq Lock] in
theorem LockState.holds_put {other : Nat} :
    LockState.Holds { state.put id after with store } other lock ↔
      (other = id ∧ ∃ moved ∈ after, lock ∈ moved.held) ∨
        (other ≠ id ∧ state.Holds other lock) := by
  by_cases same : other = id
  · subst same
    simp [LockState.Holds, put]
  · simp [LockState.Holds, put, same]

theorem Kept.put_apart (kept : Kept rules view invariant state) (store : Store)
    (takes : ∀ moved ∈ after, ∀ lock ∈ moved.held, state.Holds id lock ∨ state.Free lock) :
    ∀ first second lock, LockState.Holds { state.put id after with store } first lock →
      LockState.Holds { state.put id after with store } second lock → first = second := by
  -- What the task holds now, no other task holds.
  have alone : ∀ other lock, other ≠ id → (∃ moved ∈ after, lock ∈ moved.held) →
      ¬state.Holds other lock := by
    rintro other lock apart ⟨moved, hMoved, holds⟩ also
    rcases takes moved hMoved lock holds with before | isFree
    · exact apart (kept.apart other id lock also before)
    · exact isFree other also
  intro first second lock hFirst hSecond
  rcases holds_put.mp hFirst with ⟨rfl, moved⟩ | ⟨firstOther, firstHolds⟩
  · rcases holds_put.mp hSecond with ⟨rfl, _⟩ | ⟨secondOther, secondHolds⟩
    · rfl
    · exact absurd secondHolds (alone second lock secondOther moved)
  · rcases holds_put.mp hSecond with ⟨rfl, moved⟩ | ⟨secondOther, secondHolds⟩
    · exact absurd firstHolds (alone first lock firstOther moved)
    · exact kept.apart first second lock firstHolds secondHolds

/-- A step of a task that obeys its rules keeps the invariant. -/
theorem Kept.step {after : LockState Lock Locals Query Reply Proc Store} {label : LockLabel Proc}
    (ruled : Ruled rules system view invariant) (kept : Kept rules view invariant state)
    (step : system.Step state label after) : Kept rules view invariant after := by
  cases step with
  | @begin id proc unused begins =>
    refine ⟨kept.store, ?_, kept.put_apart state.store ?_⟩
    · intro other task running
      rcases eq_or_ne other id with rfl | different
      · obtain rfl : _ = task := by simpa [put] using running
        exact ruled.begin_obeys begins
      · exact kept.tasks other task (by simpa [put, different] using running)
    · rintro _ ⟨⟩ lock holds
      simp [LockTask.held, outer] at holds
  | @move id task store moved running moves =>
    obtain ⟨keeps, grows, obeys⟩ := ruled.move_obeys moves kept.store (kept.tasks id task running)
    refine ⟨keeps, ?_, kept.put_apart store ?_⟩
    · intro other task' running'
      rcases eq_or_ne other id with rfl | different
      · exact obeys task' (by simpa [put] using running')
      · exact (kept.tasks other task' (by simpa [put, different] using running')).mono grows
    · rintro _ ⟨⟩ lock holds
      rcases moves.held_subset holds with before | isFree
      · exact .inl ⟨task, running, before⟩
      · exact .inr isFree
  | @abort id =>
    refine ⟨kept.store, ?_, kept.put_apart state.store ?_⟩
    · intro other task running
      rcases eq_or_ne other id with rfl | different
      · simp [put] at running
      · exact kept.tasks other task (by simpa [put, different] using running)
    · rintro _ ⟨⟩

theorem Ruled.kept {initial : Store → Prop} (ruled : Ruled rules system view invariant)
    (begins : ∀ store, initial store → invariant store)
    (reaches : (system.machine initial).Reaches state) : Kept rules view invariant state := by
  refine reaches.invariant (motive := Kept rules view invariant) ?_ ?_
  · rintro first ⟨hInitial, idle⟩
    refine ⟨begins _ hInitial, fun id task running => ?_, fun id other lock holds _ => ?_⟩
    · rw [idle id] at running
      cases running
    · obtain ⟨task, running, -⟩ := holds
      rw [idle id] at running
      cases running
  · intro before label after _ kept step
    exact kept.step ruled step

theorem Kept.may (kept : Kept rules view invariant state) (waits : state.Waits id lock) :
    ∃ task, state.tasks id = some task ∧ rules.may (view state.store) task.held lock := by
  obtain ⟨task, _, running, waiting⟩ := waits
  obtain ⟨_, -, goesOn, -⟩ := kept.tasks id task running
  rw [waiting] at goesOn
  exact ⟨task, running, goesOn.1⟩

theorem Kept.admitted (kept : Kept rules view invariant state)
    (running : state.tasks id = some task) :
    ∃ entry, rules.admits (view state.store) (procs task.callers) (outer task.callers) entry
      task.proc := by
  obtain ⟨entry, admitted, -, -⟩ := kept.tasks id task running
  exact ⟨entry, admitted⟩

end Interleavings

end Library
