import Mathlib.Data.Prod.Lex
import Mathlib.Data.String.Basic
import PiRelay.AgentRuntime.WorkspaceConfig
import PiRelay.Library.KeyedLocks
import PiRelay.Library.Machine

/-! Calls of `materialize_session`, `reconcile_project_bases` and `remove_project_bases` on
one workspace manager. A project lock and a lock for each slot stand before the trees of the
workspace bases. What a call starts on the blocking pool goes on when the call is dropped. -/
namespace PiRelay.AgentRuntime

open Library

abbrev ProjectId := Nat

/-- The directory `workspace-bases/<project>/<dir>`. -/
structure SlotKey where
  project : ProjectId
  dir : String
deriving DecidableEq

def SlotKey.rank (slot : SlotKey) : ℕ ×ₗ String := toLex (slot.project, slot.dir)

theorem SlotKey.rank_injective : Function.Injective SlotKey.rank := by
  rintro ⟨_, _⟩ ⟨_, _⟩ same
  obtain ⟨rfl, rfl⟩ := Prod.mk.inj (congrArg ofLex same)
  rfl

instance : LinearOrder SlotKey := LinearOrder.lift' SlotKey.rank SlotKey.rank_injective

/-- The tree in a slot, as the last refresh and what came after it have left it. -/
inductive BaseTree where
  | missing
  | partly
  | renewing (config : WorkspaceBaseConfig)
  | refreshed (config : WorkspaceBaseConfig)
deriving DecidableEq

structure BaseSlot where
  present : Bool := false
  metadata : Option WorkspaceBaseConfig := none
  base : BaseTree := .missing

/-- Files of the tree are gone. -/
def BaseTree.damaged : BaseTree → BaseTree
  | .missing => .missing
  | _ => .partly

def BaseTree.renewed : BaseTree → BaseTree
  | .renewing config => .refreshed config
  | tree => tree

inductive BlockingWork where
  | removal
  | sanitizing
  | writing (config : WorkspaceBaseConfig)

/-- Work on one slot or on all slots of a project. -/
structure BlockingOp where
  project : ProjectId
  dir : Option String
  work : BlockingWork
  finished : Bool := false

def BlockingOp.covers (op : BlockingOp) (slot : SlotKey) : Bool :=
  op.project == slot.project && op.dir.all (· == slot.dir)

def BlockingOp.onSlot (slot : SlotKey) (work : BlockingWork) : BlockingOp :=
  ⟨slot.project, some slot.dir, work, false⟩

def BlockingWork.result : BlockingWork → BaseSlot → BaseSlot
  | .removal, _ => {}
  | .sanitizing, slot => slot
  | .writing config, slot => { slot with metadata := some config }

/-- Where the copy of a workspace stands. From `alive` to `copied` the call has a
`WorkspaceBase` of its slot. -/
inductive BranchPhase where
  | queued
  | locked
  | removing (op : Nat)
  | creating
  | refreshing
  | sanitizing (op : Nat)
  | writing (op : Nat)
  | alive
  | copying (source : BaseTree)
  | copied (copy : BaseTree)
  | done (copy : BaseTree)
  | dropped
deriving DecidableEq

def BranchPhase.isDone : BranchPhase → Bool
  | .done _ => true
  | _ => false

/-- One selected workspace of a session. -/
structure Branch where
  call : Nat
  slot : SlotKey
  config : WorkspaceBaseConfig
  phase : BranchPhase

inductive BaseRequest where
  | materialize (projectWorkspaces selected : List ProjectWorkspace)
  | reconcile (projectWorkspaces : List ProjectWorkspace)
  | remove

def BaseRequest.projectWorkspaces : BaseRequest → List ProjectWorkspace
  | .materialize workspaces _ => workspaces
  | .reconcile workspaces => workspaces
  | .remove => []

/-- Where a call stands; a number is that of the work it waits for. -/
inductive CallPhase where
  | queued
  | stale (op : Option Nat)
  | changed (left : List WorkspaceBaseConfig) (op : Option Nat)
  | clearing (op : Option Nat)
  | branching
  | returned
  | failed
deriving DecidableEq

def CallPhase.nextChanged : CallPhase → Option WorkspaceBaseConfig
  | .changed (config :: _) none => some config
  | _ => none

structure BaseCall where
  project : ProjectId
  request : BaseRequest
  phase : CallPhase

structure BasesState where
  isDir : String → Bool
  slots : SlotKey → BaseSlot
  blocking : List BlockingOp
  projectLocks : KeyedLocks ProjectId
  calls : List BaseCall
  slotLocks : KeyedLocks SlotKey
  branches : List Branch

/-- The steps of calls, of their branches and of the blocking pool. Which entries the stale
sweep sees while others come and go is left open. -/
inductive BasesAction where
  | begin (project : ProjectId) (request : BaseRequest)
  | takeProject (call : Nat)
  | acquireProject (call : Nat)
  | enter (call : Nat)
  | removeStale (call : Nat) (dir : String)
  | endStale (call : Nat)
  | checkChanged (call : Nat)
  | clear (call : Nat) (isThere : Bool)
  | removed (call : Nat)
  | returns (call : Nat)
  | abort (call : Nat)
  | takeSlot (branch : Nat)
  | acquireSlot (branch : Nat)
  | goOn (branch : Nat)
  | dropBranch (branch : Nat)
  | damage (op : Nat) (slot : SlotKey) (metadataToo : Bool)
  | finishOp (op : Nat)

namespace BasesState

variable (state : BasesState)

variable (id : Nat)

def setCall (call : BaseCall) : BasesState :=
  { state with calls := state.calls.set id call }

def endCall (call : BaseCall) : BasesState :=
  { state.setCall id call with projectLocks := state.projectLocks.drop id }

def setBranch (branch : Branch) (phase : BranchPhase) : BasesState :=
  { state with branches := state.branches.set id { branch with phase } }

def setSlot (slot : SlotKey) (content : BaseSlot) : BasesState :=
  { state with slots := Function.update state.slots slot content }

/-- New work gets the next number. -/
def startOp (op : BlockingOp) : BasesState := { state with blocking := state.blocking ++ [op] }

def opFinished (op : Nat) : Bool := state.blocking[op]?.any (·.finished)

def enter : Option BasesState :=
  match state.calls[id]? with
  | some ⟨project, request, .queued⟩ =>
    if state.projectLocks.requests[id]?.any (·.granted) then
      match request with
      | .remove => some (state.setCall id ⟨project, request, .clearing none⟩)
      | _ => some (state.setCall id ⟨project, request, .stale none⟩)
    else none
  | _ => none

def isStale (call : BaseCall) (dir : String) : Bool :=
  match workspaceBaseConfigs state.isDir call.request.projectWorkspaces with
  | some configs =>
    (state.slots ⟨call.project, dir⟩).present &&
      !(configs.map WorkspaceBaseConfig.workspaceDir).contains dir
  | none => false

def removeStale (dir : String) : Option BasesState :=
  match state.calls[id]? with
  | some ⟨project, request, .stale none⟩ =>
    if state.isStale ⟨project, request, .stale none⟩ dir then
      some ((state.startOp (.onSlot ⟨project, dir⟩ .removal)).setCall id
        ⟨project, request, .stale (some state.blocking.length)⟩)
    else none
  | _ => none

def spawn (id : Nat) (project : ProjectId) : List WorkspaceBaseConfig → BasesState → BasesState
  | [], state => state
  | config :: rest, state =>
    spawn id project rest
      { state with
        slotLocks := state.slotLocks.enter [⟨project, config.workspaceDir⟩]
        branches := state.branches ++
          [⟨id, ⟨project, config.workspaceDir⟩, config, .queued⟩] }

def endStale : Option BasesState :=
  match state.calls[id]? with
  | some ⟨project, .materialize workspaces selected, .stale none⟩ =>
    (workspaceBaseConfigs state.isDir selected).map fun configs =>
      spawn id project configs
        (state.endCall id ⟨project, .materialize workspaces selected, .branching⟩)
  | some ⟨project, .reconcile workspaces, .stale none⟩ =>
    (workspaceBaseConfigs state.isDir workspaces).map fun configs =>
      state.setCall id ⟨project, .reconcile workspaces, .changed configs none⟩
  | _ => none

def isChanged (slot : SlotKey) (config : WorkspaceBaseConfig) : Bool :=
  (state.slots slot).present && (state.slots slot).metadata != some config

def checkChanged : Option BasesState :=
  match state.calls[id]? with
  | some ⟨project, request, .changed (config :: left) none⟩ =>
    if state.isChanged ⟨project, config.workspaceDir⟩ config then
      some ((state.startOp (.onSlot ⟨project, config.workspaceDir⟩ .removal)).setCall id
        ⟨project, request, .changed left (some state.blocking.length)⟩)
    else some (state.setCall id ⟨project, request, .changed left none⟩)
  | some ⟨project, request, .changed [] none⟩ =>
    some (state.endCall id ⟨project, request, .returned⟩)
  | _ => none

/-- The whole directory of the project goes, if it is there. -/
def clear (isThere : Bool) : Option BasesState :=
  match state.calls[id]? with
  | some ⟨project, request, .clearing none⟩ =>
    if isThere then
      some ((state.startOp ⟨project, none, .removal, false⟩).setCall id
        ⟨project, request, .clearing (some state.blocking.length)⟩)
    else some (state.endCall id ⟨project, request, .returned⟩)
  | _ => none

/-- The removal that the call waits for is done. -/
def removed : Option BasesState :=
  match state.calls[id]? with
  | some ⟨project, request, .stale (some op)⟩ =>
    if state.opFinished op then some (state.setCall id ⟨project, request, .stale none⟩) else none
  | some ⟨project, request, .changed left (some op)⟩ =>
    if state.opFinished op then some (state.setCall id ⟨project, request, .changed left none⟩)
    else none
  | some ⟨project, request, .clearing (some op)⟩ =>
    if state.opFinished op then some (state.endCall id ⟨project, request, .returned⟩) else none
  | _ => none

def returns : Option BasesState :=
  match state.calls[id]? with
  | some ⟨project, request, .branching⟩ =>
    if state.branches.all fun branch => branch.call != id || branch.phase.isDone then
      some (state.setCall id ⟨project, request, .returned⟩)
    else none
  | _ => none

def abort : Option BasesState :=
  match state.calls[id]? with
  | some call =>
    if call.phase = .returned then none
    else some (state.endCall id { call with phase := .failed })
  | none => none

/-- A branch in its slot goes on to the next step of `refresh_workspace_base` or of the copy. -/
def goOnFrom (branch : Branch) : Option BasesState :=
  let slot := state.slots branch.slot
  let next := state.blocking.length
  match branch.phase with
  | .queued =>
    if state.slotLocks.requests[id]?.any (·.granted) then
      some (state.setBranch id branch .locked)
    else none
  | .locked =>
    if slot.present && (slot.metadata != some branch.config || slot.base == .missing) then
      some ((state.startOp (.onSlot branch.slot .removal)).setBranch id branch (.removing next))
    else some (state.setBranch id branch .creating)
  | .removing op => if state.opFinished op then some (state.setBranch id branch .creating) else none
  | .creating =>
    let created := { slot with present := true, base := .renewing branch.config }
    some ((state.setSlot branch.slot created).setBranch id branch .refreshing)
  | .refreshing =>
    match branch.config.kind with
    | .git =>
      let state := state.setSlot branch.slot { slot with base := slot.base.renewed }
      some ((state.startOp (.onSlot branch.slot (.writing branch.config))).setBranch id branch
        (.writing next))
    | .localDir =>
      some ((state.startOp (.onSlot branch.slot .sanitizing)).setBranch id branch
        (.sanitizing next))
  | .sanitizing op =>
    if state.opFinished op then
      let state := state.setSlot branch.slot { slot with base := slot.base.renewed }
      some ((state.startOp (.onSlot branch.slot (.writing branch.config))).setBranch id branch
        (.writing next))
    else none
  | .writing op => if state.opFinished op then some (state.setBranch id branch .alive) else none
  | .alive => some (state.setBranch id branch (.copying slot.base))
  | .copying source =>
    -- The copy is whole if the tree has stayed as it was.
    let copy := if slot.base = source then source else .partly
    some (state.setBranch id branch (.copied copy))
  | .copied copy =>
    some { state.setBranch id branch (.done copy) with slotLocks := state.slotLocks.drop id }
  | .done _ => none
  | .dropped => none

def callPhase : Option CallPhase := state.calls[id]?.map BaseCall.phase

def goOn : Option BasesState :=
  match state.branches[id]? with
  | some branch =>
    if state.callPhase branch.call = some .branching then state.goOnFrom id branch else none
  | none => none

def dropBranch : Option BasesState :=
  match state.branches[id]? with
  | some branch =>
    if state.callPhase branch.call = some .failed then
      some { state.setBranch id branch .dropped with slotLocks := state.slotLocks.drop id }
    else none
  | none => none

/-- A removal under way deletes some files of a slot. -/
def damage (op : Nat) (slot : SlotKey) (metadataToo : Bool) : Option BasesState :=
  match state.blocking[op]? with
  | some ⟨project, dir, .removal, false⟩ =>
    if (BlockingOp.mk project dir .removal false).covers slot then
      let before := state.slots slot
      let metadata := if metadataToo then none else before.metadata
      some (state.setSlot slot { before with metadata, base := before.base.damaged })
    else none
  | _ => none

def finishOp (op : Nat) : Option BasesState :=
  match state.blocking[op]? with
  | some ⟨project, dir, work, false⟩ =>
    some
      { state with
        blocking := state.blocking.set op ⟨project, dir, work, true⟩
        slots := fun slot =>
          if (BlockingOp.mk project dir work false).covers slot then
            work.result (state.slots slot)
          else state.slots slot }
  | _ => none

def step : BasesAction → Option BasesState
  | .begin project request =>
    some
      { state with
        projectLocks := state.projectLocks.enter [project]
        calls := state.calls ++ [⟨project, request, .queued⟩] }
  | .takeProject call =>
    (state.projectLocks.take call).map fun projectLocks => { state with projectLocks }
  | .acquireProject call =>
    (state.projectLocks.acquire call).map fun projectLocks => { state with projectLocks }
  | .enter call => state.enter call
  | .removeStale call dir => state.removeStale call dir
  | .endStale call => state.endStale call
  | .checkChanged call => state.checkChanged call
  | .clear call isThere => state.clear call isThere
  | .removed call => state.removed call
  | .returns call => state.returns call
  | .abort call => state.abort call
  | .takeSlot branch => (state.slotLocks.take branch).map fun slotLocks => { state with slotLocks }
  | .acquireSlot branch =>
    (state.slotLocks.acquire branch).map fun slotLocks => { state with slotLocks }
  | .goOn branch => state.goOn branch
  | .dropBranch branch => state.dropBranch branch
  | .damage op slot metadataToo => state.damage op slot metadataToo
  | .finishOp op => state.finishOp op

end BasesState

/-- The manager starts with the slots that earlier runs have left. -/
def basesMachine : Machine BasesState BasesAction :=
  .ofSteps (fun state => state.blocking = [] ∧ state.projectLocks = KeyedLocks.empty ∧
    state.calls = [] ∧ state.slotLocks = KeyedLocks.empty ∧ state.branches = [])
    BasesState.step

end PiRelay.AgentRuntime
