import Mathlib.Data.List.Dedup
import Mathlib.Data.List.Perm.Subperm
import Mathlib.Data.Set.Lattice
import Mathlib.Order.CompletePartialOrder
import PiRelay.AgentDaemon.DriverPrograms
import PiRelay.Library.LockCoupling

/-! Session drivers are waited for down the forest of sessions. A spawn and the deletion of a
tree hold the drivers above the one they wait for; everybody else who waits holds nothing.
What a barrier acquires under the driver of a child it only tries, and on one task the
barriers that nest are of distinct delegations. -/
namespace PiRelay.Runtime.Drivers

open List
open Library (LockRules LockState LockTask LockProgram Obeys Ruled Kept Grown Rooted Coupled
  CoupledWaits Machine)

/-- The links of the children and the delegations there are. -/
abbrev World : Type := Set (String × String) × Set String

def Store.world (store : Store) : World :=
  ({link | link ∈ store.childIds}, {id | id ∈ store.delegations.map (·.id)})

def Procedure.barrier : Procedure → Option String
  | .runDelegationBarrier delegationId => some delegationId
  | _ => none

/-- The delegations whose barriers run in a stack of calls, the innermost first. -/
def barriers (stack : List Procedure) : List String := stack.filterMap Procedure.barrier

/-- The set of a task has the delegations whose barriers run in it. -/
def InScope (world : World) (stack : List Procedure) (inFlight : InFlightBarriers) : Prop :=
  inFlight.getD [] = barriers stack ∧ (barriers stack).Nodup ∧
    ∀ delegationId ∈ barriers stack, delegationId ∈ world.2

/-- The walk over a tree that is to be deleted: it holds a tree, and what is on its stack has
its parent there and is not held itself. -/
structure Walks (links : Set (String × String)) (held seen stack : List String) : Prop where
  heldSeen : ∀ sessionId ∈ held, sessionId ∈ seen
  stacked : ∀ sessionId ∈ stack, sessionId ∈ seen ∧ sessionId ∉ held
  nodup : stack.Nodup
  tree : held = [] ∧ (∃ sessionId, stack = [sessionId]) ∨
    (∃ root, Rooted links held root) ∧
      ∀ sessionId ∈ stack, ∃ parentSessionId ∈ held, (sessionId, parentSessionId) ∈ links

/-- When a procedure may be called, its place in the stack aside. -/
def Called (world : World) (held : List String) (inFlight : InFlightBarriers) : Procedure → Prop
  | .tryDelegationBarrier delegationId => delegationId ∈ world.2
  | .completeDelegationIfReady delegationId => delegationId ∈ world.2
  -- `with` finds a set.
  | .guardDelegationBarrier delegationId => delegationId ∈ world.2 ∧ inFlight.isSome
  | .startDelegation _ => held = []
  | .materializeDelegationLaunch _ => held = []
  | .spawnSubagent _ delegationId => held = [] ∧ delegationId ∈ world.2
  | .startPreparedSession sessionId parentSessionId delegationId =>
    held = [parentSessionId] ∧ sessionId ≠ parentSessionId ∧
      (sessionId, parentSessionId) ∈ world.1 ∧ delegationId ∈ world.2
  | .cancelDelegationSubagents _ => held = []
  | .cancelSubagentWithoutReactivation _ => held = []
  | .steerSubagent _ => held = []
  | .interruptSubagent _ => held = []
  | .sessionDelete _ => held = []
  | .lockHiddenSubagentDeleteTree seen stack _ => Walks world.1 held seen stack
  | .sessionStart _ => held = []
  | .historyFork _ _ => held = []
  | .withDriver _ _ => held = []
  | .recoverActiveDelegations => held = []
  | _ => True

def Told (world : World) : (query : Query) → query.Reply → Prop
  | .newChildId parentSessionId, childSessionId =>
    childSessionId ≠ parentSessionId ∧ (childSessionId, parentSessionId) ∈ world.1
  | .listChildSessionIds parentSessionId, sessionIds =>
    ∀ sessionId ∈ sessionIds, (sessionId, parentSessionId) ∈ world.1
  | .sessionDelegationId _, delegationId => ∀ id ∈ delegationId, id ∈ world.2
  | .createDelegation _, created => ∀ delegation ∈ created, delegation.id ∈ world.2
  | .getDelegation delegationId, found =>
    ∀ delegation ∈ found, delegation.id = delegationId ∧ delegation.id ∈ world.2
  | .listDelegations, delegations => ∀ delegation ∈ delegations, delegation.id ∈ world.2
  | _, _ => True

/-- A session that is inserted under a parent is linked to it, and its delegation is known. -/
def Asks (world : World) : Query → Prop
  | .insertSession row =>
    (∀ parentSessionId ∈ row.parentSessionId, (row.id, parentSessionId) ∈ world.1) ∧
      ∀ delegationId ∈ row.delegationId, delegationId ∈ world.2
  | _ => True

theorem Walks.mono {links later : Set (String × String)} {held seen stack : List String}
    (grows : links ⊆ later) (walks : Walks links held seen stack) :
    Walks later held seen stack where
  heldSeen := walks.heldSeen
  stacked := walks.stacked
  nodup := walks.nodup
  tree := by
    rcases walks.tree with start | ⟨⟨root, rooted⟩, placed⟩
    · exact .inl start
    · refine .inr ⟨⟨root, rooted.mono grows⟩, fun sessionId onStack => ?_⟩
      obtain ⟨parentSessionId, holds, linked⟩ := placed sessionId onStack
      exact ⟨parentSessionId, holds, grows linked⟩

variable {later : World} {store : Store}

theorem InScope.mono {world : World} {stack : List Procedure} {inFlight : InFlightBarriers}
    (grows : world ≤ later) (scope : InScope world stack inFlight) : InScope later stack inFlight :=
  ⟨scope.1, scope.2.1, fun id runs => grows.2 (scope.2.2 id runs)⟩

theorem Called.mono {world : World} {held : List String} {inFlight : InFlightBarriers}
    {procedure : Procedure} (grows : world ≤ later) (called : Called world held inFlight procedure) :
    Called later held inFlight procedure := by
  cases procedure with
  | tryDelegationBarrier | completeDelegationIfReady => exact grows.2 called
  | guardDelegationBarrier => exact ⟨grows.2 called.1, called.2⟩
  | spawnSubagent => exact ⟨called.1, grows.2 called.2⟩
  | startPreparedSession => exact ⟨called.1, called.2.1, grows.1 called.2.2.1, grows.2 called.2.2.2⟩
  | lockHiddenSubagentDeleteTree => exact Walks.mono grows.1 called
  | _ => exact called

theorem Asks.mono {world : World} {query : Query} (grows : world ≤ later) (asks : Asks world query) :
    Asks later query := by
  cases query with
  | insertSession =>
    exact ⟨fun parent hParent => grows.1 (asks.1 parent hParent),
      fun delegation hDelegation => grows.2 (asks.2 delegation hDelegation)⟩
  | _ => trivial

def rules : LockRules String InFlightBarriers Query Query.Reply Procedure World where
  may := fun world held sessionId => Coupled world.1 held sessionId
  asks := Asks
  told := Told
  admits := fun world callers held inFlight procedure =>
    InScope world (procedure :: callers) inFlight ∧ Called world held inFlight procedure
  may_mono := fun grows coupled => coupled.mono grows.1
  asks_mono := fun grows asks => asks.mono grows
  admits_mono := fun grows admitted => ⟨admitted.1.mono grows, admitted.2.mono grows⟩

/-- The forest of the sessions has grown link by link, and its rows are linked. -/
structure Store.Forest (store : Store) : Prop where
  grown : Grown store.childIds
  linked : store.Linked

theorem Store.mem_of_session {sessionId : String} {row : SessionRow}
    (found : store.session sessionId = some row) : row ∈ store.sessions :=
  mem_of_find?_eq_some found

theorem Store.Linked.insertSession (linked : store.Linked) {row : SessionRow}
    (asks : Asks store.world (.insertSession row)) : (store.insertSession row).Linked := by
  unfold Store.insertSession
  split
  · exact linked
  · refine ⟨fun other hOther parent hParent => ?_, fun other hOther id hId => ?_⟩
    · rcases Library.mem_concat.mp hOther with before | rfl
      · exact linked.parents other before parent hParent
      · exact asks.1 parent hParent
    · rcases Library.mem_concat.mp hOther with before | rfl
      · exact linked.delegations other before id hId
      · exact asks.2 id hId

theorem Store.Linked.deleteSession (linked : store.Linked) (sessionId : String) :
    (store.deleteSession sessionId).Linked where
  parents := fun row hRow => linked.parents row (mem_of_mem_filter hRow)
  delegations := fun row hRow => linked.delegations row (mem_of_mem_filter hRow)

theorem Store.world_insertSession (store : Store) (row : SessionRow) :
    (store.insertSession row).world = store.world := by
  unfold Store.insertSession
  split <;> rfl

theorem Store.childIds_insertSession (store : Store) (row : SessionRow) :
    (store.insertSession row).childIds = store.childIds := by
  unfold Store.insertSession
  split <;> rfl

theorem Store.Answers.keeps {after : Store} {query : Query} {reply : query.Reply}
    (forest : store.Forest) (asks : Asks store.world query)
    (answered : store.Answers query reply after) :
    after.Forest ∧ store.world ≤ after.world ∧ Told after.world query reply := by
  cases query with
  | newChildId parentSessionId =>
    obtain ⟨⟨apart, unseen⟩, rfl⟩ := answered
    have grows : store.world ≤
        Store.world { store with childIds := (reply, parentSessionId) :: store.childIds } :=
      ⟨fun link linked => .tail _ linked, le_rfl⟩
    refine ⟨⟨⟨apart, unseen, forest.grown⟩, ?_, forest.linked.delegations⟩, grows, apart,
      mem_cons_self⟩
    exact fun row hRow parent hParent => grows.1 (forest.linked.parents row hRow parent hParent)
  | insertSession row =>
    rcases answered with rfl | ⟨-, rfl⟩
    · refine ⟨⟨?_, forest.linked.insertSession asks⟩, (store.world_insertSession row).ge, trivial⟩
      rw [store.childIds_insertSession]
      exact forest.grown
    · exact ⟨forest, le_rfl, trivial⟩
  | listChildSessionIds parentSessionId =>
    obtain ⟨rfl, rfl⟩ := answered
    refine ⟨forest, le_rfl, fun sessionId listed => ?_⟩
    obtain ⟨row, hRow, rfl⟩ := mem_map.mp listed
    obtain ⟨stored, isChild⟩ := mem_filter.mp hRow
    exact forest.linked.parents row stored parentSessionId (eq_of_beq isChild)
  | deleteSession sessionId =>
    rcases answered with rfl | ⟨-, rfl⟩
    · exact ⟨⟨forest.grown, forest.linked.deleteSession sessionId⟩, le_rfl, trivial⟩
    · exact ⟨forest, le_rfl, trivial⟩
  | sessionDelegationId =>
    obtain ⟨rfl, rfl⟩ := answered
    refine ⟨forest, le_rfl, fun id hId => ?_⟩
    obtain ⟨row, found, mem⟩ := Option.bind_eq_some_iff.mp hId
    exact forest.linked.delegations row (Store.mem_of_session found) id mem
  | createDelegation =>
    rcases answered with ⟨delegation, rfl, -, ⟨known, rfl⟩ | rfl⟩ | ⟨rfl, rfl⟩
    · refine ⟨forest, le_rfl, ?_⟩
      rintro _ ⟨⟩
      exact mem_map_of_mem known
    · have grows : store.world ≤
          Store.world { store with delegations := delegation :: store.delegations } :=
        ⟨le_rfl, fun id known => .tail _ known⟩
      refine ⟨⟨forest.grown, forest.linked.parents, ?_⟩, grows, ?_⟩
      · exact fun row hRow id hId => grows.2 (forest.linked.delegations row hRow id hId)
      · rintro _ ⟨⟩
        exact (.head _)
    · exact ⟨forest, le_rfl, fun _ absent => nomatch absent⟩
  | getDelegation =>
    obtain ⟨found, rfl⟩ := answered
    refine ⟨forest, le_rfl, fun delegation hFound => ?_⟩
    obtain ⟨known, named⟩ := found delegation hFound
    exact ⟨named, mem_map_of_mem known⟩
  | listDelegations =>
    obtain ⟨listed, rfl⟩ := answered
    exact ⟨forest, le_rfl, fun delegation hListed => mem_map_of_mem (listed _ hListed)⟩
  | check =>
    obtain rfl : after = store := answered
    exact ⟨forest, le_rfl, trivial⟩
  | _ =>
    obtain ⟨-, rfl⟩ := answered
    exact ⟨forest, le_rfl, trivial⟩

section Functions

variable {world : World} {stack : List Procedure} {outer own : List String}
  {inFlight entry : InFlightBarriers}

variable {procedure : Procedure} {sessionId delegationId : String} {seen held : List String}

theorem InScope.push (scope : InScope world stack inFlight) (silent : procedure.barrier = none) :
    InScope world (procedure :: stack) inFlight := by
  simpa [InScope, barriers, silent] using scope

theorem ask_obeys {query : Query} {next : query.Reply → DriverProgram} (asks : Asks world query)
    (goesOn : ∀ reply, Obeys rules stack outer entry (next reply) own inFlight world) :
    Obeys rules stack outer entry (.ask query next) own inFlight world :=
  ⟨asks, fun reply _ grows _ => (goesOn reply).mono grows⟩

theorem branch_obeys {decides : Check} {next : Bool → DriverProgram}
    (goesOn : ∀ answer, Obeys rules stack outer entry (next answer) own inFlight world) :
    Obeys rules stack outer entry (branch decides next) own inFlight world :=
  ask_obeys trivial goesOn

theorem done_obeys (ok : Bool) : Obeys rules stack outer entry (.done ok) own entry world := rfl

theorem release_obeys {next : DriverProgram}
    (goesOn : Obeys rules stack outer entry next (own.erase sessionId) inFlight world) :
    Obeys rules stack outer entry (.release sessionId next) own inFlight world := goesOn

theorem attempt_obeys {next : DriverProgram}
    (goesOn : Obeys rules stack outer entry next own entry world) :
    Obeys rules stack outer entry (attempt next) own entry world := by
  refine branch_obeys fun answer => ?_
  cases answer with
  | true => exact goesOn
  | false => exact done_obeys false

theorem call_obeys {next : Bool → DriverProgram} (scope : InScope world stack inFlight)
    (silent : procedure.barrier = none) (called : Called world (own ++ outer) inFlight procedure)
    (goesOn : ∀ ok, Obeys rules stack outer entry (next ok) own inFlight world) :
    Obeys rules stack outer entry (.call procedure next) own inFlight world :=
  ⟨⟨scope.push silent, called⟩, goesOn⟩

section

variable (scope : InScope world stack entry)
include scope

theorem callOk_obeys {next : DriverProgram} (silent : procedure.barrier = none)
    (called : Called world (own ++ outer) entry procedure)
    (goesOn : Obeys rules stack outer entry next own entry world) :
    Obeys rules stack outer entry (callOk procedure next) own entry world := by
  refine call_obeys scope silent called fun ok => ?_
  cases ok with
  | true => exact goesOn
  | false => exact done_obeys false

section

variable (sessionId : String)

theorem ensureIdleForSourceMutation_obeys :
    Obeys rules stack outer entry (ensureIdleForSourceMutation sessionId) own entry world :=
  callOk_obeys scope rfl trivial (branch_obeys done_obeys)

theorem recoverIfNeeded_obeys :
    Obeys rules stack outer entry (recoverIfNeeded sessionId) own entry world := by
  refine attempt_obeys (branch_obeys fun active => ?_)
  split
  · exact done_obeys true
  refine attempt_obeys (branch_obeys fun resumed => ?_)
  split
  · exact done_obeys true
  refine attempt_obeys (branch_obeys fun atBoundary => ?_)
  split
  · exact call_obeys scope rfl trivial done_obeys
  refine attempt_obeys (branch_obeys fun atBoundary => ?_)
  split
  · exact call_obeys scope rfl trivial done_obeys
  refine attempt_obeys (branch_obeys fun shouldContinue => branch_obeys fun isIdle => ?_)
  split
  · exact call_obeys scope rfl trivial fun _ => attempt_obeys (done_obeys true)
  · refine attempt_obeys ?_
    split
    · exact call_obeys scope rfl trivial done_obeys
    · exact done_obeys true

theorem reconcileAbandonedBoundarySession_obeys :
    Obeys rules stack outer entry (reconcileAbandonedBoundarySession sessionId) own entry
      world := by
  refine attempt_obeys (branch_obeys fun isIdle => ?_)
  split
  · exact call_obeys scope rfl trivial fun _ => done_obeys true
  · exact done_obeys true

theorem driveUntilBlocked_obeys :
    Obeys rules stack outer entry (driveUntilBlocked sessionId) own entry world :=
  attempt_obeys (call_obeys scope rfl trivial done_obeys)

theorem driveRound_obeys :
    Obeys rules stack outer entry (driveRound sessionId) own entry world := by
  refine branch_obeys fun active => ?_
  split
  · exact done_obeys true
  refine attempt_obeys (branch_obeys fun consumed => attempt_obeys (branch_obeys fun sent => ?_))
  split
  · exact done_obeys true
  split
  · exact call_obeys scope rfl trivial done_obeys
  refine attempt_obeys (branch_obeys fun unfinished => ?_)
  split
  · exact done_obeys true
  refine attempt_obeys (branch_obeys fun took => ?_)
  split
  · refine attempt_obeys (branch_obeys fun sent => ?_)
    split
    · exact done_obeys true
    · exact call_obeys scope rfl trivial done_obeys
  · refine attempt_obeys (call_obeys scope rfl trivial fun _ => ?_)
    exact attempt_obeys (done_obeys true)

theorem tryHandleSubagentTerminalForParent_obeys :
    Obeys rules stack outer entry (tryHandleSubagentTerminalForParent sessionId) own entry
      world := by
  refine ask_obeys trivial fun parentSessionId => ?_
  split
  · exact done_obeys true
  refine ⟨trivial, fun delegationId later grows told => ?_⟩
  have scope := scope.mono grows
  cases delegationId with
  | none => exact done_obeys true
  | some delegationId =>
    refine branch_obeys fun claimed => ?_
    split
    · exact call_obeys scope rfl (told delegationId rfl) fun _ => done_obeys true
    · exact done_obeys true

end

section

variable (known : delegationId ∈ world.2)
include known

theorem tryDelegationBarrier_obeys :
    Obeys rules stack outer entry (tryDelegationBarrier delegationId) own entry world :=
  call_obeys scope rfl known fun _ => done_obeys true

theorem completeDelegationIfReady_obeys :
    Obeys rules stack outer entry (completeDelegationIfReady delegationId) own entry world := by
  cases entry with
  | some => exact call_obeys scope rfl ⟨known, rfl⟩ done_obeys
  | none =>
    have established : InScope world stack (some []) := scope
    exact call_obeys established rfl ⟨known, rfl⟩ fun _ => rfl

theorem guardDelegationBarrier_obeys (isScope : entry.isSome) :
    Obeys rules stack outer entry (guardDelegationBarrier delegationId) own entry world := by
  obtain ⟨inFlight, rfl⟩ := Option.isSome_iff_exists.mp isScope
  obtain ⟨same, nodup, all⟩ := scope
  by_cases isIn : delegationId ∈ inFlight
  · rw [guardDelegationBarrier, Obeys, insertBarrier, if_pos isIn]
    exact done_obeys true
  · rw [guardDelegationBarrier, Obeys, insertBarrier, if_neg isIn]
    have isNew : delegationId ∉ barriers stack := same ▸ isIn
    refine ⟨⟨⟨?_, ?_, ?_⟩, trivial⟩, fun ok => ?_⟩
    · exact congrArg (delegationId :: ·) same
    · exact nodup_cons.mpr ⟨isNew, nodup⟩
    · intro id runs
      rcases mem_cons.mp runs with rfl | below
      · exact known
      · exact all id below
    · -- `remove` leaves what was there before.
      show Option.some ((delegationId :: inFlight).erase delegationId) = some inFlight
      rw [erase_cons_head]

end

theorem runDelegationBarrier_obeys (delegationId : String) :
    Obeys rules stack outer entry (runDelegationBarrier delegationId) own entry world := by
  refine attempt_obeys (ask_obeys trivial fun found => ?_)
  cases found with
  | none => exact done_obeys true
  | some =>
    refine branch_obeys fun isRunning => ?_
    split
    · exact done_obeys true
    refine call_obeys scope rfl trivial fun _ => attempt_obeys (branch_obeys fun terminal => ?_)
    split
    · exact done_obeys true
    refine attempt_obeys (branch_obeys fun won => ?_)
    split
    · exact done_obeys true
    · exact call_obeys scope rfl trivial fun _ => done_obeys true

theorem recoverTails_obeys (sessionIds : List String) :
    Obeys rules stack outer entry (recoverTails sessionIds) own entry world := by
  induction sessionIds generalizing own with
  | nil => exact done_obeys true
  | cons _ _ ih => exact ⟨call_obeys scope rfl trivial fun _ => release_obeys ih, ih⟩

theorem driveParentAfterWakeup_obeys (parentSessionId : String) :
    Obeys rules stack outer entry (driveParentAfterWakeup parentSessionId) own entry world := by
  refine ⟨call_obeys scope rfl trivial fun ok => ?_, done_obeys true⟩
  cases ok with
  | true => exact call_obeys scope rfl trivial fun _ => done_obeys true
  | false => exact done_obeys true

theorem startDelegation_obeys (parentSessionId : String) :
    Obeys rules stack [] entry (startDelegation parentSessionId) [] entry world := by
  refine attempt_obeys (ask_obeys trivial fun created => ?_)
  cases created with
  | none => exact done_obeys false
  | some => exact call_obeys scope rfl rfl done_obeys

theorem spawnMissing_obeys {delegation : Delegation} (known : delegation.id ∈ world.2)
    (missing : Nat) :
    Obeys rules stack [] entry (spawnMissing delegation missing) [] entry world := by
  induction missing with
  | zero => exact done_obeys true
  | succ _ ih =>
    refine branch_obeys fun isSpawned => ?_
    split
    · exact ih
    refine call_obeys scope rfl ⟨rfl, known⟩ fun ok => ?_
    split
    · exact ih
    · exact attempt_obeys (callOk_obeys scope rfl rfl (done_obeys false))

theorem materializeDelegationLaunch_obeys (delegationId : String) :
    Obeys rules stack [] entry (materializeDelegationLaunch delegationId) [] entry world := by
  refine attempt_obeys ⟨trivial, fun found later grows told => ?_⟩
  cases found with
  | none => exact done_obeys false
  | some delegation =>
    exact attempt_obeys (spawnMissing_obeys (scope.mono grows) (told delegation rfl).2 _)

theorem launchSubagent_obeys {childSessionId parentSessionId : String}
    (apart : childSessionId ≠ parentSessionId)
    (linked : (childSessionId, parentSessionId) ∈ world.1) (isFresh : Bool) :
    Obeys rules stack [] entry (launchSubagent childSessionId parentSessionId isFresh)
      [parentSessionId] entry world := by
  refine ask_obeys trivial fun actual => ?_
  split
  · exact done_obeys false
  refine branch_obeys fun published => ?_
  split
  · split
    · exact ask_obeys trivial fun _ => done_obeys false
    · exact done_obeys false
  refine ⟨Coupled.child apart linked, ?_⟩
  split
  · refine branch_obeys fun sent => ?_
    split
    · exact done_obeys true
    · exact ask_obeys trivial fun _ => done_obeys false
  · exact callOk_obeys scope rfl trivial (done_obeys true)

theorem spawnSubagent_obeys (known : delegationId ∈ world.2) (parentSessionId : String) :
    Obeys rules stack [] entry (spawnSubagent parentSessionId delegationId) [] entry world := by
  refine ⟨.inl rfl, callOk_obeys scope rfl trivial (attempt_obeys ?_)⟩
  refine ⟨trivial, fun childSessionId later grows told => ?_⟩
  obtain ⟨apart, linked⟩ := told
  have scope := scope.mono grows
  have known := grows.2 known
  have launches := launchSubagent_obeys scope apart linked
  refine attempt_obeys (branch_obeys fun isFresh => ?_)
  split
  · exact callOk_obeys scope rfl ⟨rfl, apart, linked, known⟩ (launches _)
  · have asks : Asks later
        (.insertSession ⟨childSessionId, some parentSessionId, some delegationId⟩) :=
      ⟨fun _ hParent => Option.some.inj hParent ▸ linked,
        fun _ hDelegation => Option.some.inj hDelegation ▸ known⟩
    refine attempt_obeys (ask_obeys asks fun ok => ?_)
    split
    · exact done_obeys false
    · exact launches _

end

theorem startPreparedSession_obeys {parentSessionId : String} (apart : sessionId ≠ parentSessionId)
    (linked : (sessionId, parentSessionId) ∈ world.1) (known : delegationId ∈ world.2) :
    Obeys rules stack [parentSessionId] entry
      (startPreparedSession sessionId parentSessionId delegationId) [] entry world := by
  have asks : Asks world (.insertSession ⟨sessionId, some parentSessionId, some delegationId⟩) :=
    ⟨fun _ hParent => Option.some.inj hParent ▸ linked,
      fun _ hDelegation => Option.some.inj hDelegation ▸ known⟩
  refine ⟨Coupled.child apart linked, attempt_obeys (ask_obeys trivial fun found => ?_)⟩
  split
  · exact done_obeys true
  · exact attempt_obeys (ask_obeys asks done_obeys)

theorem cancelSubagents_obeys (scope : InScope world stack entry) (sessionIds : List String) :
    Obeys rules stack [] entry (cancelSubagents sessionIds) [] entry world := by
  induction sessionIds with
  | nil => exact done_obeys true
  | cons _ _ ih => exact callOk_obeys scope rfl rfl ih

theorem cancelSubagentWithoutReactivation_obeys (sessionId : String) :
    Obeys rules stack [] entry (cancelSubagentWithoutReactivation sessionId) [] entry world :=
  attempt_obeys ⟨.inl rfl, attempt_obeys (done_obeys true)⟩

theorem steerSubagent_obeys (scope : InScope world stack entry) (sessionId : String) :
    Obeys rules stack [] entry (steerSubagent sessionId) [] entry world := by
  refine attempt_obeys ⟨.inl rfl, attempt_obeys (callOk_obeys scope rfl trivial ?_)⟩
  refine attempt_obeys (branch_obeys fun inline => ?_)
  split
  · refine attempt_obeys (call_obeys scope rfl trivial fun _ => ?_)
    exact release_obeys (done_obeys true)
  · exact release_obeys (done_obeys true)

theorem interruptSubagent_obeys (scope : InScope world stack entry) (sessionId : String) :
    Obeys rules stack [] entry (interruptSubagent sessionId) [] entry world := by
  refine attempt_obeys ⟨.inl rfl, attempt_obeys (callOk_obeys scope rfl trivial ?_)⟩
  refine attempt_obeys (call_obeys scope rfl trivial fun _ => ?_)
  exact release_obeys (done_obeys true)

theorem deleteSessions_obeys (sessionIds : List String) :
    Obeys rules stack outer entry (deleteSessions sessionIds) own entry world := by
  induction sessionIds with
  | nil => exact done_obeys true
  | cons _ _ ih =>
    refine ask_obeys trivial fun ok => ?_
    split
    · exact ih
    · exact done_obeys false

theorem mem_unseen {children : List String} (listed : sessionId ∈ unseen seen children) :
    sessionId ∈ children ∧ sessionId ∉ seen := by
  induction children generalizing seen with
  | nil => cases listed
  | cons _ _ ih =>
    unfold unseen at listed
    split at listed
    · have later := ih listed
      exact ⟨.tail _ later.1, later.2⟩
    · rename_i isNew
      rcases mem_cons.mp listed with rfl | further
      · exact ⟨.head _, isNew⟩
      · have later := ih further
        exact ⟨.tail _ later.1, fun before => later.2 (.tail _ before)⟩

theorem nodup_unseen (seen children : List String) : (unseen seen children).Nodup := by
  induction children generalizing seen with
  | nil => exact nodup_nil
  | cons _ _ ih =>
    unfold unseen
    split
    · exact ih seen
    · refine nodup_cons.mpr ⟨fun again => ?_, ih _⟩
      exact (mem_unseen again).2 (.head _)

theorem Walks.begin (links : Set (String × String)) (sessionId : String) :
    Walks links [] [sessionId] [sessionId] where
  heldSeen := fun _ holds => nomatch holds
  stacked := fun _ onStack => ⟨onStack, not_mem_nil⟩
  nodup := nodup_singleton sessionId
  tree := .inl ⟨rfl, sessionId, rfl⟩

theorem Walks.coupled {links : Set (String × String)} {stack : List String}
    (walks : Walks links held seen (sessionId :: stack)) : Coupled links held sessionId := by
  rcases walks.tree with ⟨nothing, -⟩ | ⟨rooted, placed⟩
  · exact .inl nothing
  · exact .inr ⟨rooted, (walks.stacked sessionId (.head _)).2, placed sessionId (.head _)⟩

/-- A walk goes on with the children that were not seen before. -/
theorem Walks.next {links : Set (String × String)} {stack children : List String}
    (walks : Walks links held seen (sessionId :: stack))
    (linked : ∀ child ∈ children, (child, sessionId) ∈ links) :
    Walks links (sessionId :: held) ((unseen seen children).reverse ++ seen)
      ((unseen seen children).reverse ++ stack) where
  heldSeen := by
    intro other holds
    refine mem_append_right _ ?_
    rcases mem_cons.mp holds with rfl | before
    · exact (walks.stacked other (.head _)).1
    · exact walks.heldSeen other before
  stacked := by
    intro other onStack
    rcases mem_append.mp onStack with fresh | before
    · have isNew := (mem_unseen (mem_reverse.mp fresh)).2
      refine ⟨mem_append_left _ fresh, fun holds => isNew ?_⟩
      rcases mem_cons.mp holds with rfl | earlier
      · exact (walks.stacked other (.head _)).1
      · exact walks.heldSeen other earlier
    · obtain ⟨wasSeen, notHeld⟩ := walks.stacked other (.tail _ before)
      refine ⟨mem_append_right _ wasSeen, fun holds => ?_⟩
      rcases mem_cons.mp holds with rfl | earlier
      · exact (nodup_cons.mp walks.nodup).1 before
      · exact notHeld earlier
  nodup := by
    refine nodup_append.mpr ⟨nodup_reverse.mpr (nodup_unseen seen children),
      (nodup_cons.mp walks.nodup).2, ?_⟩
    rintro fresh hFresh _ before rfl
    have isNew := (mem_unseen (mem_reverse.mp hFresh)).2
    exact isNew (walks.stacked fresh (.tail _ before)).1
  tree := by
    have rooted : ∃ root, Rooted links (sessionId :: held) root := by
      rcases walks.tree with ⟨rfl, -⟩ | ⟨⟨root, rooted⟩, placed⟩
      · exact ⟨sessionId, Rooted.singleton links sessionId⟩
      · obtain ⟨parent, holds, link⟩ := placed sessionId (.head _)
        exact ⟨root, rooted.cons holds link⟩
    refine .inr ⟨rooted, fun other onStack => ?_⟩
    rcases mem_append.mp onStack with fresh | before
    · exact ⟨sessionId, .head _, linked other (mem_unseen (mem_reverse.mp fresh)).1⟩
    · rcases walks.tree with ⟨-, only, hOnly⟩ | ⟨-, placed⟩
      · cases hOnly
        cases before
      · obtain ⟨parent, holds, link⟩ := placed other (.tail _ before)
        exact ⟨parent, .tail _ holds, link⟩

theorem sessionDelete_obeys (scope : InScope world stack entry) (sessionId : String) :
    Obeys rules stack [] entry (sessionDelete sessionId) [] entry world := by
  refine ask_obeys trivial fun found => ?_
  split
  · exact done_obeys false
  · exact call_obeys scope rfl (Walks.begin world.1 sessionId) done_obeys

theorem lockHiddenSubagentDeleteTree_obeys (scope : InScope world stack entry)
    {toLock : List String} (walks : Walks world.1 held seen toLock) (childSessionIds : List String) :
    Obeys rules stack held entry (lockHiddenSubagentDeleteTree seen toLock childSessionIds) []
      entry world := by
  cases toLock with
  | nil => exact deleteSessions_obeys _
  | cons =>
    refine ⟨walks.coupled, callOk_obeys scope rfl trivial (attempt_obeys ?_)⟩
    refine ⟨trivial, fun children later grows told => ?_⟩
    exact call_obeys (scope.mono grows) rfl ((walks.mono grows.1).next told) done_obeys

theorem asks_root (world : World) (sessionId : String) :
    Asks world (.insertSession { id := sessionId }) := by
  constructor <;> exact fun _ absent => nomatch absent

theorem sessionStart_obeys (sessionId : String) :
    Obeys rules stack [] entry (sessionStart sessionId) [] entry world := by
  refine ⟨.inl rfl, attempt_obeys (ask_obeys trivial fun found => ?_)⟩
  split
  · exact done_obeys true
  · exact attempt_obeys (ask_obeys (asks_root world sessionId) done_obeys)

section

variable (scope : InScope world stack entry)
include scope

theorem historyFork_obeys (sessionId childSessionId : String) :
    Obeys rules stack [] entry (historyFork sessionId childSessionId) [] entry world := by
  refine ⟨.inl rfl, callOk_obeys scope rfl trivial (attempt_obeys ?_)⟩
  exact ask_obeys (asks_root world childSessionId) done_obeys

theorem runStages_obeys (sessionId : String) (stages : List Stage) :
    Obeys rules stack outer entry (runStages sessionId stages) own entry world := by
  induction stages with
  | nil => exact done_obeys true
  | cons stage rest ih =>
    have next : Obeys rules stack outer entry (branch .goesOn fun goesOn =>
        if goesOn then runStages sessionId rest else .done true) own entry world := by
      refine branch_obeys fun goesOn => ?_
      split
      · exact ih
      · exact done_obeys true
    cases stage with
    | other => exact branch_obeys fun _ => next
    | _ => exact call_obeys scope rfl trivial fun _ => next

theorem withFreeDriver_obeys (sessionId : String) (stages : List Stage) :
    Obeys rules stack outer entry (withFreeDriver sessionId stages) own entry world :=
  ⟨runStages_obeys scope sessionId stages, done_obeys true⟩

theorem recoverSpawned_obeys {next : DriverProgram}
    (goesOn : Obeys rules stack [] entry next [] entry world) (sessionIds : List String) :
    Obeys rules stack [] entry (recoverSpawned next sessionIds) [] entry world := by
  induction sessionIds with
  | nil => exact goesOn
  | cons sessionId rest ih =>
    -- Its driver is let go before the next one is waited for.
    have released : Obeys rules stack [] entry (.release sessionId (recoverSpawned next rest))
        [sessionId] entry world := by
      refine release_obeys ?_
      rw [erase_cons_head]
      exact ih
    refine ⟨.inl rfl, branch_obeys fun recovers => ?_⟩
    split
    · exact call_obeys scope rfl trivial fun _ => released
    · exact released

theorem recoverChildren_obeys (delegations : List Delegation) :
    Obeys rules stack [] entry (recoverChildren delegations) [] entry world := by
  induction delegations with
  | nil => exact done_obeys true
  | cons _ _ ih => exact ask_obeys trivial (recoverSpawned_obeys scope ih)

theorem materializeLaunches_obeys {next : DriverProgram}
    (goesOn : Obeys rules stack [] entry next [] entry world) (delegations : List Delegation) :
    Obeys rules stack [] entry (materializeLaunches next delegations) [] entry world := by
  induction delegations with
  | nil => exact goesOn
  | cons _ _ ih =>
    refine branch_obeys fun isSpawned => ?_
    split
    · exact ih
    · exact call_obeys scope rfl rfl fun _ => ih

theorem recoverActiveDelegations_obeys :
    Obeys rules stack [] entry recoverActiveDelegations [] entry world :=
  ask_obeys trivial (materializeLaunches_obeys scope
    (ask_obeys trivial (recoverChildren_obeys scope)))

theorem sweepDelegations_obeys {delegations : List Delegation}
    (known : ∀ delegation ∈ delegations, delegation.id ∈ world.2) :
    Obeys rules stack outer entry (sweepDelegations delegations) own entry world := by
  induction delegations with
  | nil => exact done_obeys true
  | cons delegation _ ih =>
    refine call_obeys scope rfl (known delegation (.head _)) fun _ => ?_
    exact ih (forall_mem_cons.mp known).2

theorem sweepRunningDelegations_obeys :
    Obeys rules stack outer entry sweepRunningDelegations own entry world :=
  ⟨trivial, fun _ _ grows told => sweepDelegations_obeys (scope.mono grows) told⟩

end

/-- The body of every procedure obeys the rules of the locks. -/
theorem body_obeys {callers : List Procedure}
    (scope : InScope world (procedure :: callers) inFlight)
    (called : Called world held inFlight procedure) :
    Obeys rules (procedure :: callers) held inFlight (body procedure) [] inFlight world := by
  cases procedure with
  | ensureIdleForSourceMutation sessionId => exact ensureIdleForSourceMutation_obeys scope sessionId
  | recoverIfNeeded sessionId => exact recoverIfNeeded_obeys scope sessionId
  | reconcileAbandonedBoundarySession sessionId =>
    exact reconcileAbandonedBoundarySession_obeys scope sessionId
  | driveUntilBlocked sessionId => exact driveUntilBlocked_obeys scope sessionId
  | driveRound sessionId => exact driveRound_obeys scope sessionId
  | tryHandleSubagentTerminalForParent sessionId =>
    exact tryHandleSubagentTerminalForParent_obeys scope sessionId
  | tryDelegationBarrier => exact tryDelegationBarrier_obeys scope called
  | completeDelegationIfReady => exact completeDelegationIfReady_obeys scope called
  | guardDelegationBarrier => exact guardDelegationBarrier_obeys scope called.1 called.2
  | runDelegationBarrier delegationId => exact runDelegationBarrier_obeys scope delegationId
  | recoverSubagentTails => exact ask_obeys trivial (recoverTails_obeys scope)
  | driveParentAfterWakeup parentSessionId => exact driveParentAfterWakeup_obeys scope parentSessionId
  | startDelegation parentSessionId =>
    subst called
    exact startDelegation_obeys scope parentSessionId
  | materializeDelegationLaunch delegationId =>
    subst called
    exact materializeDelegationLaunch_obeys scope delegationId
  | spawnSubagent parentSessionId =>
    obtain ⟨rfl, known⟩ := called
    exact spawnSubagent_obeys scope known parentSessionId
  | startPreparedSession =>
    obtain ⟨rfl, apart, linked, known⟩ := called
    exact startPreparedSession_obeys apart linked known
  | cancelDelegationSubagents =>
    subst called
    exact attempt_obeys (ask_obeys trivial (cancelSubagents_obeys scope))
  | cancelSubagentWithoutReactivation sessionId =>
    subst called
    exact cancelSubagentWithoutReactivation_obeys sessionId
  | steerSubagent sessionId =>
    subst called
    exact steerSubagent_obeys scope sessionId
  | interruptSubagent sessionId =>
    subst called
    exact interruptSubagent_obeys scope sessionId
  | sessionDelete sessionId =>
    subst called
    exact sessionDelete_obeys scope sessionId
  | lockHiddenSubagentDeleteTree _ _ childSessionIds =>
    exact lockHiddenSubagentDeleteTree_obeys scope called childSessionIds
  | sessionStart sessionId =>
    subst called
    exact sessionStart_obeys sessionId
  | historyFork sessionId childSessionId =>
    subst called
    exact historyFork_obeys scope sessionId childSessionId
  | withDriver sessionId stages =>
    subst called
    exact ⟨.inl rfl, runStages_obeys scope sessionId stages⟩
  | withFreeDriver sessionId stages => exact withFreeDriver_obeys scope sessionId stages
  | recoverActiveDelegations =>
    subst called
    exact recoverActiveDelegations_obeys scope
  | sweepRunningDelegations => exact sweepRunningDelegations_obeys scope

end Functions

theorem system_ruled : Ruled rules system Store.world Store.Forest where
  answers := fun forest asks answered => Store.Answers.keeps forest asks answered
  begins := by
    intro world procedure begins
    have scope : InScope world [procedure] none := by
      cases procedure <;> first
        | exact absurd begins id
        | exact ⟨rfl, nodup_nil, fun _ runs => nomatch runs⟩
    refine ⟨scope, ?_⟩
    cases procedure <;> first
      | exact absurd begins id
      | rfl
      | trivial
  bodies := fun admitted => body_obeys admitted.1 admitted.2

/-- The daemon: any of its functions begin at any time, on tables whose sessions are a forest. -/
def machine : Machine (LockState String InFlightBarriers Query Query.Reply Procedure Store)
    (Library.LockLabel Procedure) :=
  system.machine Store.Forest

/-- The barriers that run on a task, the innermost first. -/
def barriersOf (task : LockTask String InFlightBarriers Query Query.Reply Procedure) :
    List String :=
  barriers (task.proc :: LockTask.procs task.callers)

theorem machine_kept {state : LockState String InFlightBarriers Query Query.Reply Procedure Store}
    (reaches : machine.Reaches state) : Kept rules Store.world Store.Forest state :=
  system_ruled.kept (fun _ forest => forest) reaches

theorem reentered_returns {task : LockTask String InFlightBarriers Query Query.Reply Procedure}
    {moved : Option (LockTask String InFlightBarriers Query Query.Reply Procedure)} {world : World}
    {free : String → Prop} {after : Store} {delegationId : String}
    (obeys : Library.TaskObeys rules world task)
    (entered : task.code = guardDelegationBarrier delegationId)
    (runs : delegationId ∈ barriersOf task) (moves : system.Move free store task after moved) :
    moved = some { task with code := .done true } := by
  obtain ⟨_, -, goesOn, -⟩ := obeys
  obtain ⟨_, _, code, _, locals⟩ := task
  obtain rfl : code = guardDelegationBarrier delegationId := entered
  have isOld : insertBarrier delegationId locals = (false, locals) := by
    cases locals with
    | none => rfl
    | some inFlight =>
      by_cases isIn : delegationId ∈ inFlight
      · rw [insertBarrier, if_pos isIn]
      · -- The barrier would run a second time.
        rw [guardDelegationBarrier, Obeys, insertBarrier, if_neg isIn] at goesOn
        have nodup := goesOn.1.1.2.1
        exact absurd runs (nodup_cons.mp nodup).1
  cases moves with
  | locally => simp only [isOld, Bool.not_false, if_true]

/-- No cycle of tasks each waits for a driver the next one holds; a barrier that is entered
again on the same task returns at once; and barriers nest at most as deep as there are
delegations. -/
theorem drivers_never_deadlock
    {state : LockState String InFlightBarriers Query Query.Reply Procedure Store}
    (reaches : machine.Reaches state) :
    (∀ id, ¬Relation.TransGen state.WaitsFor id id) ∧
      ∀ id task, state.tasks id = some task →
        (barriersOf task).Nodup ∧
          (barriersOf task).length ≤ (state.store.delegations.map (·.id)).dedup.length ∧
          ∀ delegationId ∈ barriersOf task, task.code = guardDelegationBarrier delegationId →
            ∀ after, system.Step state (.move id) after →
              after.tasks id = some { task with code := .done true } := by
  have kept := machine_kept reaches
  refine ⟨?_, fun id task running => ?_⟩
  · have coupled : CoupledWaits state.store.childIds state :=
      ⟨fun id lock waits => kept.may waits, kept.apart⟩
    exact coupled.acyclic kept.store.grown
  · obtain ⟨_, scope, -⟩ := kept.admitted running
    refine ⟨scope.2.1, ?_, fun delegationId runs entered after step => ?_⟩
    · have among : barriersOf task ⊆ (state.store.delegations.map (·.id)).dedup :=
        fun id runs => mem_dedup.mpr (scope.2.2 id runs)
      exact (subperm_of_subset scope.2.1 among).length_le
    · cases step with
      | @move _ task' store moved running' moves =>
        cases running.symm.trans running'
        obtain rfl := reentered_returns (kept.tasks id task running) entered runs moves
        exact Function.update_self id _ state.tasks

def bootStore : Store where
  sessions := [{ id := "parent" },
    { id := "child", parentSessionId := some "parent", delegationId := some "delegation" }]
  childIds := [("child", "parent")]
  delegations := [{ id := "delegation", parentSessionId := "parent", expectedSubagents := 1 }]

theorem bootStore_forest : bootStore.Forest :=
  ⟨by decide, ⟨by decide, by decide⟩⟩

/-- The deletion of a session waits for the driver of a child that is being run. -/
theorem sample_delete_waits : ∃ state, machine.Reaches state ∧ state.WaitsFor 1 0 ∧
    (∀ id, ¬Relation.TransGen state.WaitsFor id id) := by
  have succeeds (decides : Check) (store : Store) :
      system.answers store (.check decides) true store := rfl
  have run : machine.Reaches ⟨bootStore, fun _ => none⟩ := .start ⟨bootStore_forest, fun _ => rfl⟩
  have run := run.next (.begin rfl trivial : system.Step _ (.begin 0 (.withDriver "child" [])) _)
  have run := run.next (.move rfl (.acquire (by
    rintro (_ | id) ⟨task, running, holds⟩
    · cases running
      exact absurd holds (by decide)
    · cases running)) : system.Step _ (.move 0) _)
  have run := run.next (.begin rfl trivial : system.Step _ (.begin 1 (.sessionDelete "parent")) _)
  have run := run.next (.move rfl (by exact .ask ⟨rfl, rfl⟩) : system.Step _ (.move 1) _)
  have run := run.next (.move rfl (by exact .call) : system.Step _ (.move 1) _)
  have run := run.next (.move rfl (by
    refine .acquire ?_
    rintro (_ | _ | id) ⟨task, running, holds⟩
    · cases running
      exact absurd holds (by decide)
    · cases running
      exact absurd holds (by decide)
    · cases running) : system.Step _ (.move 1) _)
  have run := run.next (.move rfl (by exact .call) : system.Step _ (.move 1) _)
  have run := run.next (.move rfl (by exact .call) : system.Step _ (.move 1) _)
  have run := run.next (.move rfl (by exact .ask (succeeds _ _)) : system.Step _ (.move 1) _)
  have run := run.next (.move rfl (by exact .ask (succeeds _ _)) : system.Step _ (.move 1) _)
  have run := run.next (.move rfl (by exact .back) : system.Step _ (.move 1) _)
  have run := run.next (.move rfl (by exact .ask (succeeds _ _)) : system.Step _ (.move 1) _)
  have run := run.next (.move rfl (by exact .back) : system.Step _ (.move 1) _)
  have run := run.next (.move rfl (by exact .ask (succeeds _ _)) : system.Step _ (.move 1) _)
  have run := run.next (.move rfl (by exact .ask ⟨rfl, rfl⟩) : system.Step _ (.move 1) _)
  have run := run.next (.move rfl (by exact .call) : system.Step _ (.move 1) _)
  refine ⟨_, run, ⟨"child", ?_, ?_⟩, (drivers_never_deadlock run).1⟩
  · exact ⟨_, _, rfl, rfl⟩
  · exact ⟨_, rfl, .head _⟩

end PiRelay.Runtime.Drivers
