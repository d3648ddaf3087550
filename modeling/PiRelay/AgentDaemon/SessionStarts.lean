import PiRelay.AgentRuntime.SessionTrees
import PiRelay.AgentStore.SubagentControls
import PiRelay.Library.Machine

/-! Calls that start sessions with workspaces of their own (`session_start.rs`,
`subagents.rs`). A call has the runtime make the tree of the session, and stores the session
afterwards. -/
namespace PiRelay.Runtime

open AgentRuntime Library List
open Store (SubagentType)

inductive RoleContextPolicy where
  | fresh
  | forked

/-- The steps of the daemon that can fail. -/
inductive StartStep where
  | sessionExists
  | getProject
  | resolveSelection
  | runtimeRequired
  | requireAvailable
  | recoverIfNeeded
  | loadSessionConfig
  | projectRequired
  | homeProjectKey
  | readRuntimeContext
  | resolveSkillRole
  | sessionRuntimeId
  | authorSessionMcpAndPrompt
  | childSystemPrompt
  | ensureForRuntime
  | enqueueInput
  | dispatch
  | activity
  | requireKnownSubagent
  | parentSpawnEvents
  | driveUntilBlocked
deriving DecidableEq

/-- What a call does about the error of a step before it returns the error. -/
inductive OnError where
  | leave
  | destroy
  | cleanupFailedSpawn
deriving DecidableEq

abbrev StartSteps := List (StartStep × OnError)

structure StartProgram where
  /-- Before the command that makes the tree. -/
  before : List StartStep
  command : Option TreeCommand
  /-- Between the command and the insertion of the session. -/
  prepared : StartSteps
  insert : OnError
  /-- Where the session is stored already. -/
  replay : StartSteps
  /-- Where the insertion finds a session; without it that is an error. -/
  conflict : Option StartSteps
  after : StartSteps

inductive StartKind where
  | session (project : Bool) (workspaceDirs : List String)
  | subagent (subagentType : SubagentType) (context : RoleContextPolicy)
      (workspaceDirs : List String)

def sessionStart (project : Bool) (workspaceDirs : List String) : StartProgram where
  before := .sessionExists ::
    if project then [.getProject, .resolveSelection] else [.runtimeRequired, .requireAvailable]
  command := some (materializeSession workspaceDirs)
  prepared := [(.authorSessionMcpAndPrompt, .leave), (.sessionExists, .leave),
    (.ensureForRuntime, .leave), (.enqueueInput, .leave)]
  insert := .leave
  replay := [(.loadSessionConfig, .leave), (.ensureForRuntime, .leave), (.activity, .leave)]
  conflict := some [(.activity, .leave)]
  after := [(.dispatch, .leave), (.activity, .leave)]

def spawnSubagent (subagentType : SubagentType) (context : RoleContextPolicy)
    (workspaceDirs : List String) : StartProgram :=
  let before := [.recoverIfNeeded, .loadSessionConfig, .projectRequired, .homeProjectKey,
    .readRuntimeContext, .resolveSkillRole] ++
      match subagentType with
      | .full => []
      | .readOnly => [.sessionRuntimeId]
  let command := match subagentType with
    | .full => none
    | .readOnly => some (forkSessionFromParent workspaceDirs)
  let started := [(.requireKnownSubagent, .leave), (.parentSpawnEvents, .cleanupFailedSpawn),
    (.dispatch, .cleanupFailedSpawn)]
  match context with
  | .fresh =>
    { before, command
      prepared := [(.childSystemPrompt, .leave), (.sessionExists, .destroy),
        (.ensureForRuntime, .destroy), (.enqueueInput, .destroy)]
      insert := .destroy
      replay := [(.loadSessionConfig, .destroy), (.ensureForRuntime, .destroy),
        (.activity, .destroy)] ++ started
      conflict := some ((.activity, .destroy) :: started)
      after := (.activity, .destroy) :: started }
  | .forked =>
    { before, command
      prepared := [(.childSystemPrompt, .leave), (.requireAvailable, .destroy)]
      insert := .destroy
      replay := []
      conflict := none
      after := [(.requireKnownSubagent, .leave), (.parentSpawnEvents, .leave),
        (.driveUntilBlocked, .leave)] }

def StartKind.program : StartKind → StartProgram
  | .session project workspaceDirs => sessionStart project workspaceDirs
  | .subagent subagentType context workspaceDirs => spawnSubagent subagentType context workspaceDirs

inductive StartPhase where
  | before (rest : List StartStep)
  | sending
  | waiting
  | prepared (rest : StartSteps)
  | inserting
  | after (rest : StartSteps)
  | destroying
  | cleaning
  | deleting
  | returned (ok : Bool)
deriving DecidableEq

structure StartCall where
  kind : StartKind
  sessionId : String
  /-- The workspace that is made, or that of the parent. -/
  workspaceId : String
  phase : StartPhase
  task : TreeTask
  /-- The row of the session is the one that this call has inserted. -/
  stored : Bool

/-- The identifier of a session and its workspace. -/
abbrev StartRow := String × String

structure StartState where
  trees : String → SessionTree
  rows : List StartRow
  calls : List StartCall

inductive CallAction where
  /-- The next step of the daemon. -/
  | goOn (ok : Bool)
  /-- The transaction is committed, and reported as failed. -/
  | loseCommit
  /-- The next step of the runtime. -/
  | advance (ok : Bool)
  | deliver
  /-- No result comes: a timeout, or the connection is lost. -/
  | giveUp
  | abort

namespace StartCall

variable (call : StartCall)

def makes : Bool := call.kind.program.command.isSome

def row : StartRow := (call.sessionId, call.workspaceId)

def isStored (rows : List StartRow) : Bool :=
  rows.any (·.1 == call.sessionId)

/-- What follows an error. A workspace that is shared with the parent is never destroyed. -/
def failed : OnError → StartPhase
  | .leave => .returned false
  | .destroy => if call.makes then .destroying else .returned false
  | .cleanupFailedSpawn => if call.makes then .cleaning else .deleting

abbrev Effect := StartCall × SessionTree × List StartRow

def insertRow (tree : SessionTree) (rows : List StartRow) (phase : StartPhase) : Effect :=
  ({ call with stored := true, phase }, tree, rows ++ [call.row])

/-- The next step of the daemon. -/
def goOn (tree : SessionTree) (rows : List StartRow) (ok : Bool) : Option Effect :=
  match call.phase with
  | .before (step :: rest) =>
    if !ok then some ({ call with phase := .returned false }, tree, rows)
    else if step = .sessionExists ∧ call.isStored rows then
      some ({ call with phase := .after call.kind.program.replay }, tree, rows)
    else some ({ call with phase := .before rest }, tree, rows)
  | .before [] =>
    let phase := if call.makes then .sending else .prepared call.kind.program.prepared
    some ({ call with phase }, tree, rows)
  | .sending =>
    match ok, call.kind.program.command with
    | true, some command =>
      some ({ call with phase := .waiting, task := .checking command.checks }, tree, rows)
    | _, _ => some ({ call with phase := .returned false }, tree, rows)
  | .prepared ((step, onError) :: rest) =>
    if !ok then some ({ call with phase := call.failed onError }, tree, rows)
    else if step = .sessionExists ∧ call.isStored rows then
      some ({ call with phase := .after call.kind.program.replay }, tree, rows)
    else some ({ call with phase := .prepared rest }, tree, rows)
  | .prepared [] => some ({ call with phase := .inserting }, tree, rows)
  | .inserting =>
    if !ok then
      some ({ call with phase := call.failed call.kind.program.insert }, tree, rows)
    else if call.isStored rows then
      match call.kind.program.conflict with
      | some steps => some ({ call with phase := .after steps }, tree, rows)
      | none => some ({ call with phase := call.failed call.kind.program.insert }, tree, rows)
    else some (call.insertRow tree rows (.after call.kind.program.after))
  | .after ((_, onError) :: rest) =>
    let phase := if ok then .after rest else call.failed onError
    some ({ call with phase }, tree, rows)
  | .after [] => some ({ call with phase := .returned true }, tree, rows)
  | .destroying => some ({ call with phase := .returned false }, .absent, rows)
  | .cleaning => some ({ call with phase := .deleting }, if ok then .absent else tree, rows)
  | .deleting =>
    let call := { call with phase := .returned false }
    if ok then some ({ call with stored := false }, tree,
      rows.filter (·.1 != call.sessionId))
    else some (call, tree, rows)
  | .waiting => none
  | .returned _ => none

def step (tree : SessionTree) (rows : List StartRow) : CallAction → Option Effect
  | .goOn ok => call.goOn tree rows ok
  | .loseCommit =>
    if call.phase = .inserting ∧ call.isStored rows = false then
      some (call.insertRow tree rows (call.failed call.kind.program.insert))
    else none
  | .advance ok =>
    match call.kind.program.command with
    | none => none
    | some command =>
      match call.task.advance command tree ok with
      | none => none
      | some (task, tree) => some ({ call with task }, tree, rows)
  | .deliver =>
    match call.phase, call.task with
    | .waiting, .ended true =>
      some ({ call with phase := .prepared call.kind.program.prepared }, tree, rows)
    | .waiting, .ended false => some ({ call with phase := .returned false }, tree, rows)
    | _, _ => none
  | .giveUp =>
    if call.phase = .waiting then some ({ call with phase := .returned false }, tree, rows)
    else none
  | .abort =>
    if call.phase ≠ .waiting ∧ call.task.running then
      some ({ call with task := .aborted }, tree, rows)
    else none

end StartCall

namespace StartState

variable (state : StartState)

def freshSession (sessionId : String) : Bool :=
  state.calls.all (·.sessionId != sessionId) && state.rows.all (·.1 != sessionId)

def freshWorkspace (workspaceId : String) : Bool :=
  state.calls.all (·.workspaceId != workspaceId) && state.rows.all (·.2 != workspaceId) &&
    state.trees workspaceId == .absent

end StartState

variable (call : StartCall)

def StartCall.holdsDriver : Bool :=
  match call.phase, call.kind with
  | .returned _, _ => false
  | _, .session .. => true
  | _, .subagent .. => !call.stored

namespace StartState

variable (state : StartState)

/-- Generated identifiers are new. A full subagent shares the workspace of a stored session. -/
def mayBegin (kind : StartKind) (sessionId workspaceId : String) : Bool :=
  let session := match kind with
    | .session .. => state.calls.all fun call => !(call.sessionId == sessionId && call.holdsDriver)
    | .subagent .. => state.freshSession sessionId
  let workspace := if kind.program.command.isSome then state.freshWorkspace workspaceId
    else state.rows.any (·.2 == workspaceId)
  session && workspace

end StartState

inductive StartAction where
  | begin (kind : StartKind) (sessionId workspaceId : String)
  | act (id : Nat) (action : CallAction)

def StartState.step (state : StartState) : StartAction → Option StartState
  | .begin kind sessionId workspaceId =>
    if state.mayBegin kind sessionId workspaceId then
      some { state with calls := state.calls ++
        [⟨kind, sessionId, workspaceId, .before kind.program.before, .unsent, false⟩] }
    else none
  | .act id action =>
    match state.calls[id]? with
    | none => none
    | some call =>
      match call.step (state.trees call.workspaceId) state.rows action with
      | none => none
      | some (next, tree, rows) =>
        some ⟨Function.update state.trees call.workspaceId tree, rows, state.calls.set id next⟩

/-- At first every tree is that of a stored session. -/
def startMachine : Machine StartState StartAction :=
  .ofSteps (fun state => state.calls = [] ∧
    ∀ workspaceId, state.trees workspaceId ≠ .absent → ∃ row ∈ state.rows, row.2 = workspaceId)
    StartState.step

namespace StartCall

/-- An error of the next step of the daemon is returned with the tree left behind. -/
def leaves : Bool :=
  match call.phase with
  | .prepared ((_, onError) :: _) => onError == .leave
  | .inserting => call.kind.program.insert == .leave
  | .cleaning => true
  | _ => false

/-- No error leaves a tree behind, and the daemon gives up only what makes none. -/
def Admits (tree : SessionTree) : CallAction → Prop
  | .goOn false => call.makes = true → call.leaves = false
  | .advance true => call.task = .checking [] → call.phase = .waiting
  | .advance false => call.task.unshielded = false
  | .giveUp => tree = .absent
  | _ => True

instance (call : StartCall) (tree : SessionTree) : DecidablePred (call.Admits tree)
  | .goOn false | .advance true => inferInstanceAs (Decidable (_ → _))
  | .advance false => inferInstanceAs (Decidable (_ = false))
  | .giveUp => inferInstanceAs (Decidable (tree = .absent))
  | .goOn true | .loseCommit | .deliver | .abort => .isTrue trivial

def inProgress : Bool :=
  call.task.running || match call.phase with
    | .returned _ => false
    | _ => true

/-- The call of the daemon, or the command of the runtime, has returned an error. -/
def failedCall : Bool :=
  call.phase == .returned false || call.task == .ended false

end StartCall

namespace StartState

def Admits (state : StartState) : StartAction → Prop
  | .begin .. => True
  | .act id action => ∀ call ∈ state.calls[id]?,
      call.Admits (state.trees call.workspaceId) action

instance (state : StartState) : DecidablePred state.Admits
  | .begin .. => .isTrue trivial
  | .act id action => inferInstanceAs (Decidable (∀ call ∈ state.calls[id]?,
      call.Admits (state.trees call.workspaceId) action))

def Owned (state : StartState) (workspaceId : String) : Prop :=
  ∃ row ∈ state.rows, row.2 = workspaceId

/-- What a failed call has made is gone, or is that of a stored session. -/
def CleanErrors (state : StartState) : Prop :=
  ∀ call ∈ state.calls, call.makes = true → call.failedCall = true →
    state.trees call.workspaceId = .absent ∨ state.Owned call.workspaceId

/-- Every tree is that of a stored session, or of a call in progress. -/
def NoOrphans (state : StartState) : Prop :=
  ∀ workspaceId, state.trees workspaceId ≠ .absent → state.Owned workspaceId ∨
    ∃ call ∈ state.calls, call.workspaceId = workspaceId ∧ call.inProgress = true

end StartState

namespace StartPhase

/-- The session is not stored yet. -/
def pending : StartPhase → Bool
  | .before _ => true
  | .sending => true
  | .waiting => true
  | .prepared _ => true
  | .inserting => true
  | _ => false

/-- The session is known not to be stored. -/
def reserved : StartPhase → Bool
  | .before rest => !rest.contains .sessionExists
  | .sending => true
  | .waiting => true
  | .prepared _ => true
  | .inserting => true
  | _ => false

theorem pending_of_reserved {phase : StartPhase} (isReserved : phase.reserved) : phase.pending := by
  cases phase <;> first | rfl | cases isReserved

end StartPhase

namespace StartCall

/-- Only a session that the call has stored is cleaned up, and only a tree that it has made is
destroyed. -/
def RowKept : Prop :=
  match call.phase with
  | .before rest => call.stored = false ∧ rest ⊆ call.kind.program.before
  | .sending => call.stored = false
  | .waiting => call.stored = false
  | .prepared rest => call.stored = false ∧ ∀ step ∈ rest, step.2 ≠ .cleanupFailedSpawn
  | .inserting => call.stored = false
  | .after rest => call.stored = true ∨ ∀ step ∈ rest, step.2 = .leave
  | .cleaning => call.stored = true ∧ call.makes = true
  | .deleting => call.stored = true
  | .destroying => call.makes = true
  | .returned _ => True

/-- How a step of a call changes the stored sessions. -/
inductive RowChange (call : StartCall) (rows : List StartRow) :
    StartCall → List StartRow → Prop where
  | same {phase : StartPhase} {task : TreeTask}
      (pending : phase.pending = true → call.phase.pending = true)
      (reserved : phase.reserved = true → call.isStored rows = false) :
      RowChange call rows { call with phase, task } rows
  | inserted {phase : StartPhase} (pending : call.phase.pending = true)
      (free : call.isStored rows = false) (done : phase.pending = false) :
      RowChange call rows { call with stored := true, phase } (rows ++ [call.row])
  | deleted (stored : call.stored = true) :
      RowChange call rows { call with stored := false, phase := .returned false }
        (rows.filter (·.1 != call.sessionId))

variable {call next : StartCall} {tree treeAfter : SessionTree}
  {rows rowsAfter : List StartRow} {action : CallAction}

theorem replay_leaves {kind : StartKind} (mayExist : .sessionExists ∈ kind.program.before) :
    ∀ step ∈ kind.program.replay, step.2 = .leave := by
  cases kind with
  | session => simp [StartKind.program, sessionStart]
  | subagent subagentType context =>
    cases subagentType <;> cases context <;> simp [StartKind.program, spawnSubagent] at mayExist

theorem prepared_spares (kind : StartKind) :
    ∀ step ∈ kind.program.prepared, step.2 ≠ .cleanupFailedSpawn := by
  cases kind with
  | session => simp [StartKind.program, sessionStart]
  | subagent _ context => cases context <;> simp [StartKind.program, spawnSubagent]

theorem insert_spares (kind : StartKind) : kind.program.insert ≠ .cleanupFailedSpawn := by
  cases kind with
  | session => simp [StartKind.program, sessionStart]
  | subagent _ context => cases context <;> simp [StartKind.program, spawnSubagent]

theorem failed_not_pending (onError : OnError) : (call.failed onError).pending = false := by
  cases onError <;> simp only [failed] <;> first | rfl | (split <;> rfl)

theorem reserved_le_pending {phase : StartPhase} (done : phase.pending = false) :
    phase.reserved = false := by
  rw [← Bool.not_eq_true] at done ⊢
  exact fun isReserved => done (StartPhase.pending_of_reserved isReserved)

variable {task : TreeTask} {ok : Bool}

theorem RowChange.ended {phase : StartPhase} (done : phase.pending = false) :
    RowChange call rows { call with phase, task } rows := by
  apply RowChange.same
  · intro isPending
    rw [done] at isPending
    cases isPending
  · intro isReserved
    rw [reserved_le_pending done] at isReserved
    cases isReserved

theorem failed_rowKept {stored : Bool} (onError : OnError)
    (safe : onError = .cleanupFailedSpawn → stored) :
    RowKept { call with phase := call.failed onError, task, stored } := by
  cases onError with
  | leave => trivial
  | destroy =>
    rw [failed]
    split
    · assumption
    · trivial
  | cleanupFailedSpawn =>
    have isStored := safe rfl
    rw [failed]
    split
    · exact ⟨isStored, ‹_›⟩
    · exact isStored

theorem rowChange_goOn (kept : call.RowKept)
    (free : call.phase.reserved → call.isStored rows = false)
    (isStep : call.goOn tree rows ok = some (next, treeAfter, rowsAfter)) :
    next.RowKept ∧ RowChange call rows next rowsAfter := by
  obtain ⟨kind, _, _, phase, _, stored⟩ := call
  cases phase with
  | before steps =>
    obtain ⟨unstored, within⟩ := kept
    cases steps with
    | nil =>
      cases isStep
      have notStored := free rfl
      split
      · exact ⟨unstored, .same (fun _ => rfl) (fun _ => notStored)⟩
      · exact ⟨⟨unstored, prepared_spares kind⟩, .same (fun _ => rfl) (fun _ => notStored)⟩
    | cons step =>
      simp only [goOn] at isStep
      split at isStep
      · cases isStep
        exact ⟨trivial, .ended rfl⟩
      · split at isStep
        · rename_i exists_
          cases isStep
          have mayExist : StartStep.sessionExists ∈ kind.program.before := by
            rw [← exists_.1]
            exact within (.head _)
          exact ⟨.inr (replay_leaves mayExist), .ended rfl⟩
        · rename_i absent
          cases isStep
          refine ⟨⟨unstored, (cons_subset.mp within).2⟩, .same (fun _ => rfl) ?_⟩
          intro isReserved
          by_cases checks : step = .sessionExists
          · simpa [checks] using absent
          · apply free
            simpa [StartPhase.reserved, Ne.symm checks] using isReserved
  | sending =>
    have notStored := free rfl
    simp only [goOn] at isStep
    split at isStep
    · cases isStep
      exact ⟨kept, .same (fun _ => rfl) (fun _ => notStored)⟩
    · cases isStep
      exact ⟨trivial, .ended rfl⟩
  | waiting | returned => cases isStep
  | prepared steps =>
    have notStored := free rfl
    obtain ⟨unstored, spared⟩ := kept
    cases steps with
    | nil =>
      cases isStep
      exact ⟨unstored, .same (fun _ => rfl) (fun _ => notStored)⟩
    | cons entry =>
      simp only [goOn] at isStep
      split at isStep
      · cases isStep
        exact ⟨failed_rowKept _ (fun cleans => absurd cleans (spared entry (.head _))),
          .ended (failed_not_pending _)⟩
      · split at isStep
        · rename_i exists_
          rw [notStored] at exists_
          cases exists_.2
        · cases isStep
          exact ⟨⟨unstored, (forall_mem_cons.mp spared).2⟩,
            .same (fun _ => rfl) (fun _ => notStored)⟩
  | inserting =>
    have notStored := free rfl
    simp only [goOn, notStored] at isStep
    split at isStep
    · cases isStep
      exact ⟨failed_rowKept _ (fun cleans => absurd cleans (insert_spares kind)),
        .ended (failed_not_pending _)⟩
    · cases isStep
      exact ⟨.inl rfl, .inserted rfl notStored rfl⟩
  | after steps =>
    cases steps with
    | nil =>
      cases isStep
      exact ⟨trivial, .ended rfl⟩
    | cons entry rest =>
      cases isStep
      have keptRest : stored ∨ ∀ step ∈ rest, step.2 = .leave :=
        kept.imp_right (fun leaves step mem => leaves step (.tail _ mem))
      split
      · exact ⟨keptRest, .ended rfl⟩
      · refine ⟨failed_rowKept _ (fun cleans => ?_), .ended (failed_not_pending _)⟩
        rcases kept with isStored | leaves
        · exact isStored
        · cases cleans.symm.trans (leaves entry (.head _))
  | destroying =>
    cases isStep
    exact ⟨trivial, .ended rfl⟩
  | cleaning =>
    cases isStep
    exact ⟨kept.1, .ended rfl⟩
  | deleting =>
    simp only [goOn] at isStep
    split at isStep
    · cases isStep
      exact ⟨trivial, .deleted kept⟩
    · cases isStep
      exact ⟨trivial, .ended rfl⟩

theorem rowChange (kept : call.RowKept) (free : call.phase.reserved → call.isStored rows = false)
    (isStep : call.step tree rows action = some (next, treeAfter, rowsAfter)) :
    next.RowKept ∧ RowChange call rows next rowsAfter := by
  cases action with
  | goOn => exact rowChange_goOn kept free isStep
  | loseCommit =>
    rw [step] at isStep
    split at isStep
    · rename_i enabled
      cases isStep
      have isPending : call.phase.pending := by rw [enabled.1]; rfl
      exact ⟨failed_rowKept _ (fun _ => rfl), .inserted isPending enabled.2 (failed_not_pending _)⟩
    · cases isStep
  | advance =>
    rw [step] at isStep
    split at isStep
    · cases isStep
    · split at isStep
      · cases isStep
      · cases isStep
        exact ⟨kept, .same id free⟩
  | deliver =>
    rw [step] at isStep
    split at isStep
    · rename_i isWaiting _
      cases isStep
      have unstored : call.stored = false := by simpa [RowKept, isWaiting] using kept
      refine ⟨⟨unstored, prepared_spares _⟩, .same (fun _ => ?_) (fun _ => free ?_)⟩
      · rw [isWaiting]; rfl
      · rw [isWaiting]; rfl
    · cases isStep
      exact ⟨trivial, .ended rfl⟩
    · cases isStep
  | giveUp =>
    rw [step] at isStep
    split at isStep
    · cases isStep
      exact ⟨trivial, .ended rfl⟩
    · cases isStep
  | abort =>
    rw [step] at isStep
    split at isStep
    · cases isStep
      exact ⟨kept, .same id free⟩
    · cases isStep

theorem tree_of_goOn (isStep : call.goOn tree rows ok = some (next, treeAfter, rowsAfter)) :
    treeAfter = tree ∨ call.phase = .destroying ∨ call.phase = .cleaning := by
  obtain ⟨_, _, _, phase, _, _⟩ := call
  cases phase with
  | destroying => exact .inr (.inl rfl)
  | cleaning => exact .inr (.inr rfl)
  | before steps | prepared steps
  | after steps => cases steps <;> simp only [goOn] at isStep <;> grind
  | _ =>
    simp only [goOn, insertRow] at isStep
    grind

theorem tree_spared (kept : call.RowKept) (makesNone : call.makes = false)
    (isStep : call.step tree rows action = some (next, treeAfter, rowsAfter)) :
    treeAfter = tree := by
  have noCommand : call.kind.program.command = none := by simpa [makes] using makesNone
  cases action with
  | goOn =>
    obtain ⟨_, _, _, _, _, _⟩ := call
    rcases tree_of_goOn isStep with same | rfl | rfl
    · exact same
    · cases makesNone.symm.trans kept
    · cases makesNone.symm.trans kept.2
  | advance =>
    rw [step, noCommand] at isStep
    cases isStep
  | loseCommit =>
    rw [step, insertRow] at isStep
    grind
  | _ =>
    rw [step] at isStep
    grind

/-- Where a call stands with its tree. -/
def TreeKept (call : StartCall) (tree : SessionTree) : Prop :=
  call.task.Kept tree ∧ match call.phase with
    | .before _ => call.task = .unsent
    | .sending => call.task = .unsent
    | .waiting => True
    | .prepared _ => call.task.running = false
    | .inserting => call.task.running = false
    | .after _ => call.task.running = false ∧ (call.stored = true ∨ tree = .absent)
    | .destroying => call.task.running = false
    | .cleaning => call.task.running = false
    | .deleting => call.task.running = false ∧ tree = .absent
    | .returned _ => (call.stored = true ∨ tree = .absent) ∧
        (call.task.running = true → tree = .absent)

theorem not_making (idle : task.running = false) : task.making = false := by
  cases task <;> first | rfl | cases idle

theorem failed_treeKept (makes : call.makes) {stored : Bool} (kept : call.task.Kept tree)
    (idle : call.task.running = false) (onError : OnError)
    (left : onError = .leave → stored ∨ tree = .absent) :
    TreeKept { call with phase := call.failed onError, stored } tree := by
  refine ⟨kept, ?_⟩
  cases onError with
  | leave =>
    refine ⟨left rfl, fun isRunning => ?_⟩
    rw [idle] at isRunning
    cases isRunning
  | destroy | cleanupFailedSpawn =>
    rw [failed, makes]
    exact idle

theorem treeKept_goOn (makes : call.makes) (kept : call.TreeKept tree)
    (rowKept : call.RowKept) (free : call.phase.reserved → call.isStored rows = false)
    (admitted : call.Admits tree (.goOn ok))
    (isStep : call.goOn tree rows ok = some (next, treeAfter, rowsAfter)) :
    next.TreeKept treeAfter := by
  obtain ⟨_, _, _, phase, task, _⟩ := call
  obtain ⟨taskKept, phaseKept⟩ := kept
  cases phase with
  | before steps =>
    obtain rfl : task = .unsent := phaseKept
    have absent : tree = .absent := taskKept.unmade rfl (by simp)
    cases steps with
    | nil =>
      obtain ⟨rfl, rfl, rfl⟩ := by simpa [goOn, makes] using isStep
      exact ⟨taskKept, rfl⟩
    | cons =>
      simp only [goOn] at isStep
      split at isStep
      · cases isStep
        exact ⟨taskKept, .inr absent, fun _ => absent⟩
      · split at isStep
        · cases isStep
          exact ⟨taskKept, rfl, .inr absent⟩
        · cases isStep
          exact ⟨taskKept, rfl⟩
  | sending =>
    obtain rfl : task = .unsent := phaseKept
    have absent : tree = .absent := taskKept.unmade rfl (by simp)
    simp only [goOn] at isStep
    split at isStep
    · cases isStep
      exact ⟨.of_absent absent rfl, trivial⟩
    · cases isStep
      exact ⟨taskKept, .inr absent, fun _ => absent⟩
  | waiting | returned => cases isStep
  | prepared steps =>
    have notStored := free rfl
    cases steps with
    | nil =>
      cases isStep
      exact ⟨taskKept, phaseKept⟩
    | cons =>
      simp only [goOn] at isStep
      split at isStep
      · rename_i isError
        obtain rfl : ok = false := by simpa using isError
        cases isStep
        apply failed_treeKept makes taskKept phaseKept
        rintro isLeave
        have shielded := admitted makes
        simp [leaves, isLeave] at shielded
      · split at isStep
        · rename_i exists_
          rw [notStored] at exists_
          cases exists_.2
        · cases isStep
          exact ⟨taskKept, phaseKept⟩
  | inserting =>
    have notStored := free rfl
    simp only [goOn, notStored] at isStep
    split at isStep
    · rename_i isError
      obtain rfl : ok = false := by simpa using isError
      cases isStep
      apply failed_treeKept makes taskKept phaseKept
      intro isLeave
      have shielded := admitted makes
      simp [leaves, isLeave] at shielded
    · cases isStep
      exact ⟨taskKept, phaseKept, .inl rfl⟩
  | after steps =>
    obtain ⟨idle, owned⟩ := phaseKept
    cases steps with
    | nil =>
      cases isStep
      refine ⟨taskKept, owned, fun isRunning => ?_⟩
      rw [idle] at isRunning
      cases isRunning
    | cons =>
      cases isStep
      split
      · exact ⟨taskKept, idle, owned⟩
      · exact failed_treeKept makes taskKept idle _ (fun _ => owned)
  | destroying =>
    cases isStep
    exact ⟨.of_absent rfl (not_making phaseKept), .inr rfl, fun _ => rfl⟩
  | cleaning =>
    have isOk : ok := by
      cases ok with
      | true => rfl
      | false => cases admitted makes
    obtain ⟨rfl, rfl, rfl⟩ := by simpa [goOn, isOk] using isStep
    exact ⟨.of_absent rfl (not_making phaseKept), phaseKept, rfl⟩
  | deleting =>
    obtain ⟨idle, absent⟩ := phaseKept
    simp only [goOn] at isStep
    split at isStep
    · cases isStep
      exact ⟨taskKept, .inr absent, fun _ => absent⟩
    · cases isStep
      exact ⟨taskKept, .inr absent, fun _ => absent⟩

theorem TreeKept.of_running (kept : call.TreeKept tree) (isRunning : call.task.running) :
    call.phase = .waiting ∨ (∃ ok, call.phase = .returned ok) ∧ tree = .absent := by
  obtain ⟨_, _, _, phase, task, _⟩ := call
  obtain ⟨-, phaseKept⟩ := kept
  cases phase with
  | waiting => exact .inl rfl
  | returned ok => exact .inr ⟨⟨ok, rfl⟩, phaseKept.2 isRunning⟩
  | before | sending =>
    rw [show task = .unsent from phaseKept] at isRunning
    cases isRunning
  | after | deleting => cases isRunning.symm.trans phaseKept.1
  | _ => cases isRunning.symm.trans phaseKept

theorem treeKept_advance {command : TreeCommand} (kept : call.TreeKept tree)
    (admitted : call.Admits tree (.advance ok))
    (isStep : call.task.advance command tree ok = some (task, treeAfter)) :
    TreeKept { call with task } treeAfter := by
  have taskAfter : task.Kept treeAfter := by
    apply kept.1.advance isStep
    rintro rfl
    exact admitted
  refine ⟨taskAfter, ?_⟩
  rcases kept.of_running (TreeTask.running_of_advance isStep) with isWaiting |
    ⟨⟨ok, hasReturned⟩, absent⟩
  · simp only [isWaiting]
  · have absentAfter : treeAfter = .absent := by
      apply TreeTask.advance_absent kept.1 absent isStep
      rintro rfl atRoot
      cases hasReturned.symm.trans (admitted atRoot)
    rw [hasReturned]
    exact ⟨.inr absentAfter, fun _ => absentAfter⟩

theorem treeKept_step (makes : call.makes) (kept : call.TreeKept tree)
    (rowKept : call.RowKept) (free : call.phase.reserved → call.isStored rows = false)
    (admitted : call.Admits tree action)
    (isStep : call.step tree rows action = some (next, treeAfter, rowsAfter)) :
    next.TreeKept treeAfter := by
  cases action with
  | goOn => exact treeKept_goOn makes kept rowKept free admitted isStep
  | loseCommit =>
    rw [step] at isStep
    split at isStep
    · rename_i enabled
      cases isStep
      have idle : call.task.running = false := by
        have phaseKept := kept.2
        rw [enabled.1] at phaseKept
        exact phaseKept
      exact failed_treeKept makes kept.1 idle _ (fun _ => .inl rfl)
    · cases isStep
  | advance =>
    rw [step] at isStep
    split at isStep
    · cases isStep
    · split at isStep
      · cases isStep
      · rename_i isAdvance
        cases isStep
        exact treeKept_advance kept admitted isAdvance
  | deliver =>
    rw [step] at isStep
    split at isStep
    · rename_i hasEnded
      cases isStep
      refine ⟨kept.1, ?_⟩
      rw [hasEnded]
      rfl
    · rename_i hasEnded
      cases isStep
      have absent := kept.1.unmade (by rw [hasEnded]; rfl) (by simp [hasEnded])
      exact ⟨kept.1, .inr absent, fun _ => absent⟩
    · cases isStep
  | giveUp =>
    rw [step] at isStep
    split at isStep
    · cases isStep
      exact ⟨kept.1, .inr admitted, fun _ => admitted⟩
    · cases isStep
  | abort =>
    rw [step] at isStep
    split at isStep
    · rename_i enabled
      obtain ⟨notWaiting, isRunning⟩ := enabled
      cases isStep
      rcases kept.of_running isRunning with isWaiting | ⟨⟨ok, hasReturned⟩, absent⟩
      · exact absurd isWaiting notWaiting
      · refine ⟨.of_absent absent rfl, ?_⟩
        rw [hasReturned]
        exact ⟨.inr absent, fun _ => absent⟩
    · cases isStep

end StartCall

/-- The sessions that calls have stored, and those they are about to store. -/
structure RowsKept (state : StartState) : Prop where
  rowKept : ∀ call ∈ state.calls, call.RowKept
  stored : ∀ call ∈ state.calls, call.stored = true → call.row ∈ state.rows
  oneStored : SoleKeys StartCall.stored StartCall.sessionId state.calls
  free : ∀ call ∈ state.calls, call.phase.reserved = true → call.isStored state.rows = false
  onePending : SoleKeys (·.phase.pending) StartCall.sessionId state.calls

/-- The trees of the calls. A tree that no call has made is that of a session that no call
has stored. -/
structure TreesKept (state : StartState) : Prop where
  treeKept : ∀ call ∈ state.calls, call.makes = true →
    call.TreeKept (state.trees call.workspaceId)
  oneMaker : SoleKeys StartCall.makes StartCall.workspaceId state.calls
  owned : ∀ workspaceId, state.trees workspaceId ≠ .absent →
    (∃ call ∈ state.calls, call.makes = true ∧ call.workspaceId = workspaceId) ∨
      ∃ row ∈ state.rows, row.2 = workspaceId ∧
        ∀ call ∈ state.calls, call.stored = true → call.sessionId ≠ row.1

variable {state after : StartState} {kind : StartKind} {sessionId workspaceId : String}
  {id : Nat} {call next : StartCall} {rows : List StartRow}

theorem isStored_eq_false : call.isStored rows = false ↔ ∀ row ∈ rows, row.1 ≠ call.sessionId := by
  simp [StartCall.isStored]

namespace StartCall.RowChange

section

variable (change : RowChange call state.rows next rows)
include change

theorem same_session :
    next.kind = call.kind ∧ next.sessionId = call.sessionId ∧
      next.workspaceId = call.workspaceId := by
  cases change <;> exact ⟨rfl, rfl, rfl⟩

theorem pending_was (isPending : next.phase.pending) : call.phase.pending := by
  cases change with
  | same pending => exact pending isPending
  | inserted pending => exact pending
  | deleted => cases isPending

theorem stored_was (isStored : next.stored) : call.stored ∨ call.isStored state.rows = false := by
  cases change with
  | same => exact .inl isStored
  | inserted _ free => exact .inr free
  | deleted => cases isStored

theorem free_after (isReserved : next.phase.reserved) : next.isStored rows = false := by
  cases change with
  | same _ reserved => exact reserved isReserved
  | inserted _ _ done =>
    rw [reserved_le_pending done] at isReserved
    cases isReserved
  | deleted => cases isReserved

theorem stored_after (was : call.stored → call.row ∈ state.rows)
    (isStored : next.stored) : next.row ∈ rows := by
  cases change with
  | same => exact was isStored
  | inserted => exact mem_append_right _ (.head _)
  | deleted => cases isStored

theorem row_stays {row : StartRow} (mem : row ∈ state.rows)
    (other : call.stored → row.1 ≠ call.sessionId) : row ∈ rows := by
  cases change with
  | same => exact mem
  | inserted => exact mem_append_left _ mem
  | deleted isStored => exact mem_filter.mpr ⟨mem, by simpa using other isStored⟩

theorem row_was {row : StartRow} (mem : row ∈ rows) : row ∈ state.rows ∨
      row = call.row ∧ call.phase.pending := by
  cases change with
  | same => exact .inl mem
  | inserted pending =>
    rcases Library.mem_concat.mp mem with old | new
    · exact .inl old
    · exact .inr ⟨new, pending⟩
  | deleted => exact .inl (mem_of_mem_filter mem)

end

end StartCall.RowChange

/-- An action of one call keeps the rows of the others. -/
theorem RowsKept.act (kept : RowsKept state) (found : state.calls[id]? = some call)
    (nextKept : next.RowKept) (change : StartCall.RowChange call state.rows next rows)
    (trees : String → SessionTree) : RowsKept ⟨trees, rows, state.calls.set id next⟩ := by
  obtain ⟨-, sameSession, -⟩ := change.same_session
  have inCalls := mem_of_getElem? found
  refine ⟨?_, ?_, ?_, ?_, ?_⟩
  · intro other mem
    rcases mem_set_cases mem with rfl | ⟨index, -, isOther⟩
    · exact nextKept
    · exact kept.rowKept other (mem_of_getElem? isOther)
  · intro other mem isStored
    rcases mem_set_cases mem with rfl | ⟨index, different, isOther⟩
    · exact change.stored_after (kept.stored call inCalls) isStored
    · apply change.row_stays (kept.stored other (mem_of_getElem? isOther) isStored)
      intro callStored same
      exact different (kept.oneStored index id other call isOther found isStored callStored same)
  · apply kept.oneStored.set found
    intro isStored
    rcases change.stored_was isStored with callStored | free
    · exact .inl ⟨callStored, sameSession⟩
    · refine .inr fun index other different isOther otherStored same => ?_
      have otherRow := kept.stored other (mem_of_getElem? isOther) otherStored
      exact isStored_eq_false.mp free other.row otherRow (same.trans sameSession)
  · intro other mem isReserved
    rcases mem_set_cases mem with rfl | ⟨index, different, isOther⟩
    · exact change.free_after isReserved
    · rw [isStored_eq_false]
      intro row isRow same
      rcases change.row_was isRow with old | ⟨rfl, isPending⟩
      · have free := kept.free other (mem_of_getElem? isOther) isReserved
        exact isStored_eq_false.mp free row old same
      · exact different (kept.onePending index id other call isOther found
          (StartPhase.pending_of_reserved isReserved) isPending same.symm)
  · exact kept.onePending.set_kept found change.pending_was sameSession

/-- An action of one call keeps the trees of the others. -/
theorem TreesKept.act (kept : TreesKept state)
    (found : state.calls[id]? = some call) {tree : SessionTree}
    (change : StartCall.RowChange call state.rows next rows)
    (made : call.makes → next.TreeKept tree)
    (spared : call.makes = false → tree = state.trees call.workspaceId) :
    TreesKept ⟨Function.update state.trees call.workspaceId tree, rows,
      state.calls.set id next⟩ := by
  obtain ⟨sameKind, sameSession, sameWorkspace⟩ := change.same_session
  have sameMakes : next.makes = call.makes := by rw [StartCall.makes, StartCall.makes, sameKind]
  have inCalls := mem_of_getElem? found
  refine ⟨?_, ?_, ?_⟩
  · intro other mem makes
    dsimp only
    rcases mem_set_cases mem with rfl | ⟨index, different, isOther⟩
    · rw [sameWorkspace, Function.update_self]
      exact made (sameMakes.symm.trans makes)
    · have otherKept := kept.treeKept other (mem_of_getElem? isOther) makes
      rcases eq_or_ne other.workspaceId call.workspaceId with same | apart
      · cases callMakes : call.makes with
        | true =>
          exact absurd
            (kept.oneMaker index id other call isOther found makes callMakes same) different
        | false =>
          rw [spared callMakes, Function.update_eq_self]
          exact otherKept
      · rw [Function.update_of_ne apart]
        exact otherKept
  · exact kept.oneMaker.set_kept found (fun makes => sameMakes.symm.trans makes) sameWorkspace
  · intro workspaceId present
    dsimp only at present
    have wasOwned : (call.makes ∧ call.workspaceId = workspaceId) ∨
        state.trees workspaceId ≠ .absent := by
      rcases eq_or_ne workspaceId call.workspaceId with rfl | apart
      · cases callMakes : call.makes with
        | true => exact .inl ⟨rfl, rfl⟩
        | false =>
          rw [spared callMakes, Function.update_eq_self] at present
          exact .inr present
      · rw [Function.update_of_ne apart] at present
        exact .inr present
    have nextMakes : call.makes → ∃ other ∈ state.calls.set id next,
        other.makes ∧ other.workspaceId = call.workspaceId := fun makes =>
      ⟨next, mem_set_self found, sameMakes.trans makes, sameWorkspace⟩
    rcases wasOwned with ⟨makes, rfl⟩ | present
    · exact .inl (nextMakes makes)
    · rcases kept.owned workspaceId present with ⟨owner, mem, makes, rfl⟩ |
        ⟨row, isRow, isWorkspace, apart⟩
      · rcases mem_set_of_mem found mem with stays | rfl
        · exact .inl ⟨owner, stays, makes, rfl⟩
        · exact .inl (nextMakes makes)
      · refine .inr ⟨row, ?_, isWorkspace, ?_⟩
        · exact change.row_stays isRow fun isStored same => apart call inCalls isStored same.symm
        · intro other mem isStored
          rcases mem_set_cases mem with rfl | ⟨index, -, isOther⟩
          · rw [sameSession]
            rcases change.stored_was isStored with callStored | free
            · exact apart call inCalls callStored
            · exact (isStored_eq_false.mp free row isRow).symm
          · exact apart other (mem_of_getElem? isOther) isStored

theorem StartState.freshSession_iff : state.freshSession sessionId ↔
    (∀ call ∈ state.calls, call.sessionId ≠ sessionId) ∧ ∀ row ∈ state.rows, row.1 ≠ sessionId := by
  simp [freshSession]

theorem StartState.freshWorkspace_iff : state.freshWorkspace workspaceId ↔
    ((∀ call ∈ state.calls, call.workspaceId ≠ workspaceId) ∧
      ∀ row ∈ state.rows, row.2 ≠ workspaceId) ∧ state.trees workspaceId = .absent := by
  simp [freshWorkspace]

/-- The call as it begins. -/
abbrev begun (kind : StartKind) (sessionId workspaceId : String) : StartCall :=
  ⟨kind, sessionId, workspaceId, .before kind.program.before, .unsent, false⟩

theorem holdsDriver_of_pending (kept : call.RowKept) (isPending : call.phase.pending) :
    call.holdsDriver := by
  obtain ⟨kind, _, _, phase, _, stored⟩ := call
  have unstored : stored = false := by
    cases phase with
    | before | prepared => exact kept.1
    | sending | waiting | inserting => exact kept
    | _ => cases isPending
  cases phase <;> cases kind <;> first | rfl | (rw [unstored]; rfl) | cases isPending

theorem session_of_unreserved (kind : StartKind) (unchecked : .sessionExists ∉ kind.program.before) :
    ∃ subagentType context workspaceDirs, kind = .subagent subagentType context workspaceDirs := by
  cases kind with
  | session => exact absurd (.head _) unchecked
  | subagent => exact ⟨_, _, _, rfl⟩

theorem RowsKept.begin (kept : RowsKept state)
    (enabled : state.mayBegin kind sessionId workspaceId) :
    RowsKept { state with calls := state.calls ++ [begun kind sessionId workspaceId] } := by
  obtain ⟨newSession, -⟩ := Bool.and_eq_true_iff.mp enabled
  refine ⟨?_, ?_, ?_, ?_, ?_⟩
  · intro call mem
    rcases mem_concat.mp mem with old | rfl
    · exact kept.rowKept call old
    · exact ⟨rfl, List.Subset.refl _⟩
  · intro call mem isStored
    rcases mem_concat.mp mem with old | rfl
    · exact kept.stored call old isStored
    · cases isStored
  · exact kept.oneStored.append fun isStored => by cases isStored
  · intro call mem isReserved
    rcases mem_concat.mp mem with old | rfl
    · exact kept.free call old isReserved
    · obtain ⟨subagentType, context, workspaceDirs, rfl⟩ :=
        session_of_unreserved kind (by simpa [StartPhase.reserved] using isReserved)
      exact isStored_eq_false.mpr (StartState.freshSession_iff.mp newSession).2
  · refine kept.onePending.append fun _ other mem isPending => ?_
    cases kind with
    | session =>
      have notHeld := List.all_eq_true.mp newSession other mem
      simpa [holdsDriver_of_pending (kept.rowKept other mem) isPending] using notHeld
    | subagent => exact (StartState.freshSession_iff.mp newSession).1 other mem

theorem TreesKept.begin (kept : TreesKept state)
    (enabled : state.mayBegin kind sessionId workspaceId) :
    TreesKept { state with calls := state.calls ++ [begun kind sessionId workspaceId] } := by
  obtain ⟨-, newWorkspace⟩ := Bool.and_eq_true_iff.mp enabled
  have fresh : kind.program.command.isSome →
      state.freshWorkspace workspaceId := by
    intro makes
    simpa [makes] using newWorkspace
  refine ⟨?_, ?_, ?_⟩
  · intro call mem makes
    rcases mem_concat.mp mem with old | rfl
    · exact kept.treeKept call old makes
    · have absent := (StartState.freshWorkspace_iff.mp (fresh makes)).2
      exact ⟨.of_absent absent rfl, rfl⟩
  · refine kept.oneMaker.append fun makes other mem _ => ?_
    exact (StartState.freshWorkspace_iff.mp (fresh makes)).1.1 other mem
  · intro workspace present
    rcases kept.owned workspace present with ⟨owner, mem, makes, isOwner⟩ |
      ⟨row, isRow, isWorkspace, apart⟩
    · exact .inl ⟨owner, mem_append_left _ mem, makes, isOwner⟩
    · refine .inr ⟨row, isRow, isWorkspace, fun call mem isStored => ?_⟩
      rcases mem_concat.mp mem with old | rfl
      · exact apart call old isStored
      · cases isStored

theorem startKept_step {action : StartAction} (rowsKept : RowsKept state)
    (treesKept : TreesKept state) (admitted : state.Admits action)
    (isStep : state.step action = some after) : RowsKept after ∧ TreesKept after := by
  cases action with
  | begin =>
    rw [StartState.step] at isStep
    split at isStep
    · rename_i enabled
      cases isStep
      exact ⟨rowsKept.begin enabled, treesKept.begin enabled⟩
    · cases isStep
  | act =>
    rw [StartState.step] at isStep
    split at isStep
    · cases isStep
    · rename_i call found
      split at isStep
      · cases isStep
      · rename_i next tree rows callStep
        cases isStep
        have inCalls := mem_of_getElem? found
        have callKept := rowsKept.rowKept call inCalls
        have free := rowsKept.free call inCalls
        obtain ⟨nextKept, change⟩ := StartCall.rowChange callKept free callStep
        refine ⟨rowsKept.act found nextKept change _, treesKept.act found change ?_ ?_⟩
        · exact fun makes => StartCall.treeKept_step makes (treesKept.treeKept call inCalls makes)
            callKept free (admitted call found) callStep
        · exact fun makesNone => StartCall.tree_spared callKept makesNone callStep

theorem startKept_of_reaches (reaches : (startMachine.guarded StartState.Admits).Reaches state) :
    RowsKept state ∧ TreesKept state := by
  apply reaches.invariant
  · rintro state ⟨noCalls, owned⟩
    constructor
    · refine ⟨by simp [noCalls], by simp [noCalls], ?_, by simp [noCalls], ?_⟩ <;>
        · rw [noCalls]
          exact .nil
    · refine ⟨by simp [noCalls], ?_, fun workspaceId present => .inr ?_⟩
      · rw [noCalls]
        exact .nil
      · obtain ⟨row, isRow, isWorkspace⟩ := owned workspaceId present
        exact ⟨row, isRow, isWorkspace, by simp [noCalls]⟩
  · exact fun state action after _ kept isStep => startKept_step kept.1 kept.2 isStep.1 isStep.2

/-- In a run whose steps are all admitted, failed calls leave nothing behind, and every tree
belongs to a stored session or to a call in progress. -/
theorem no_orphan_workspaces (reaches : (startMachine.guarded StartState.Admits).Reaches state) :
    state.CleanErrors ∧ state.NoOrphans := by
  obtain ⟨rowsKept, treesKept⟩ := startKept_of_reaches reaches
  have owned : ∀ call ∈ state.calls, call.stored → state.Owned call.workspaceId :=
    fun call mem isStored => ⟨call.row, rowsKept.stored call mem isStored, rfl⟩
  constructor
  · intro call mem makes failed
    obtain ⟨taskKept, phaseKept⟩ := treesKept.treeKept call mem makes
    rcases Bool.or_eq_true_iff.mp failed with hasReturned | hasEnded
    · rw [eq_of_beq hasReturned] at phaseKept
      rcases phaseKept.1 with isStored | absent
      · exact .inr (owned call mem isStored)
      · exact .inl absent
    · have isTask := eq_of_beq hasEnded
      exact .inl (taskKept.unmade (by rw [isTask]; rfl) (by simp [isTask]))
  · intro workspaceId present
    rcases treesKept.owned workspaceId present with ⟨call, mem, makes, rfl⟩ |
      ⟨row, isRow, isWorkspace, -⟩
    · cases going : call.inProgress with
      | true => exact .inr ⟨call, mem, rfl, going⟩
      | false =>
        obtain ⟨-, phaseKept⟩ := treesKept.treeKept call mem makes
        obtain ⟨_, _, workspaceId, phase, _, _⟩ := call
        cases phase with
        | returned =>
          rcases phaseKept.1 with isStored | absent
          · exact .inl (owned _ mem isStored)
          · exact absurd absent present
        | _ => simp [StartCall.inProgress] at going
    · exact .inl ⟨row, isRow, isWorkspace⟩

def noSessions : StartState := ⟨fun _ => .absent, [], []⟩

/-- The tree of a session without a project is made. -/
def startRun : List StartAction :=
  .begin (.session false []) "session" "workspace" ::
    ([.goOn true, .goOn true, .goOn true, .goOn true, .goOn true, .advance true, .advance true,
      .advance true, .advance true, .advance true, .advance true, .advance true,
      .deliver] : List CallAction).map (.act 0)

/-- The selection of tools fails. -/
def leakingRun : List StartAction := startRun ++ [.act 0 (.goOn false)]

/-- The call has returned an error, and the tree belongs to nobody. -/
theorem start_leaks_tree :
    (¬ ∀ state, startMachine.Reaches state → state.CleanErrors) ∧
      ¬ ∀ state, startMachine.Reaches state → state.NoOrphans := by
  have ends : (leakingRun.foldlM StartState.step noSessions).any fun state =>
      state.trees "workspace" == .whole && state.rows.isEmpty &&
        state.calls.any (fun call => call.makes && call.failedCall &&
          call.workspaceId == "workspace") && state.calls.all (!·.inProgress) := by
    decide +kernel
  obtain ⟨state, isRun, ends⟩ := (Option.any_eq_true _ _).mp ends
  simp only [Bool.and_eq_true, beq_iff_eq, List.isEmpty_iff, List.any_eq_true, List.all_eq_true]
    at ends
  obtain ⟨⟨⟨isWhole, noRows⟩, call, mem, ⟨makes, failed⟩, isWorkspace⟩, allOver⟩ := ends
  have reaches : startMachine.Reaches state :=
    Machine.Reaches.run (.start ⟨rfl, fun _ present => absurd rfl present⟩) isRun
  have unowned : ¬ state.Owned "workspace" := by
    rintro ⟨_, isRow, -⟩
    rw [noRows] at isRow
    cases isRow
  constructor
  · intro clean
    rcases clean state reaches call mem makes failed with absent | owned
    · rw [isWorkspace, isWhole] at absent
      cases absent
    · rw [isWorkspace] at owned
      exact unowned owned
  · intro noOrphans
    rcases noOrphans state reaches "workspace" (by simp [isWhole]) with owned |
      ⟨other, isOther, -, going⟩
    · exact unowned owned
    · simpa [going] using allOver other isOther

/-- A session is stored, and the forks of two subagents fail: one is cleaned up by the runtime,
the other by the daemon. -/
def cleanRun : List StartAction :=
  startRun ++ ([.goOn true, .goOn true, .goOn true, .goOn true, .goOn true,
      .goOn true] : List CallAction).map (.act 0) ++
    [.begin (.subagent .readOnly .fresh []) "first" "firstFork",
      .begin (.subagent .readOnly .forked []) "second" "secondFork"] ++
    (List.replicate 9 (.goOn true) ++ [.advance true, .advance true, .advance true, .advance true,
      .advance true, .advance false, .advance true, .deliver] : List CallAction).map (.act 1) ++
    (List.replicate 9 (.goOn true) ++ List.replicate 9 (.advance true) ++
      [.deliver, .goOn true, .goOn false, .goOn true] : List CallAction).map (.act 2)

/-- Both forks are gone, and the session has its tree. -/
theorem cleanRun_no_orphans : ∃ state,
    (startMachine.guarded StartState.Admits).Reaches state ∧
      state.trees "workspace" = .whole ∧ state.rows = [("session", "workspace")] ∧
      state.calls.countP (·.failedCall) = 2 ∧ state.CleanErrors ∧ state.NoOrphans := by
  have ends : (cleanRun.foldlM (fun state action => if decide (state.Admits action) then
      state.step action else none) noSessions).any fun state =>
        state.trees "workspace" == .whole && state.rows == [("session", "workspace")] &&
          state.calls.countP (·.failedCall) == 2 := by
    decide +kernel
  obtain ⟨state, isRun, ends⟩ := (Option.any_eq_true _ _).mp ends
  simp only [Bool.and_eq_true, beq_iff_eq] at ends
  have reaches : (startMachine.guarded StartState.Admits).Reaches state :=
    Machine.Reaches.checkedRun (fun _ _ => of_decide_eq_true)
      (.start ⟨rfl, fun _ present => absurd rfl present⟩) isRun
  exact ⟨state, reaches, ends.1.1, ends.1.2, ends.2, no_orphan_workspaces reaches⟩

end PiRelay.Runtime
