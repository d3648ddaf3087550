import PiRelay.AgentDaemon.Handoff
import PiRelay.AgentStore.DelegationLifecycle
import PiRelay.AgentStore.DelegationTransactions

/-! The barrier of a delegation. A run of it looks at every subagent, classifies the
delegation by the branches it reads, one after the other, and then claims the terminal
status; the claim looks again at who is idle, but not at how anybody ended. -/
namespace PiRelay.Runtime

open AgentVocab AgentCore Session Store DelegationStore List Option
open Library (Machine)

/-- What has to hold of each subagent, one query at a time. -/
inductive TerminalCheck where
  | noUnfinishedActions
  | noQueuedInputs
  | turnBoundary

def TerminalCheck.passes (check : TerminalCheck) (session : SessionRow) : Bool :=
  match check with
  | .noUnfinishedActions => !session.hasUnfinishedActions
  | .noQueuedInputs => !session.hasQueuedInputs
  | .turnBoundary => session.activeLeafIsTurnBoundary

/-- A run reads the delegation, checks every subagent that it lists, lists them again
to read their branches, and claims the status. Beside each branch stands whether the
active leaf was the end of a failed turn. -/
inductive BarrierStage where
  | begun
  | checking (checks : List (String × TerminalCheck))
  | checked
  | classifying (remaining : List String) (read : List (String × Bool))
  | classified (status : DelegationStatus) (read : List (String × Bool))

namespace BarrierStage

/-- The subagents that have been read, and whether they had failed. -/
def read : BarrierStage → List (String × Bool)
  | .classifying _ read | .classified _ read => read
  | _ => []

/-- What decides the status: the failure that was read, or that none has been. -/
def decisive (stage : BarrierStage) : List (String × Bool) :=
  stage.read.filter fun entry => entry.2 || !stage.read.any Prod.snd

end BarrierStage

/-- The delegation is as it was read. -/
structure BarrierRun where
  delegation : DelegationRow
  stage : BarrierStage

def subagentIds (store : DelegationStore) (delegationId : String) : List String :=
  (store.subagents delegationId).map SessionRow.id

/-- The next step of a run before its claim; it gives up where there is none. -/
def BarrierRun.advance (run : BarrierRun) (store : DelegationStore) : Option BarrierStage :=
  let delegationId := run.delegation.id
  match run.stage with
  | .begun =>
    match store.findDelegation delegationId with
    | none => none
    | some row =>
      let listed := subagentIds store delegationId
      if (listed.length : Int) != row.expectedSubagents then none
      else
        some (.checking (listed.flatMap fun id =>
          [(id, .noUnfinishedActions), (id, .noQueuedInputs), (id, .turnBoundary)]))
  | .checking [] => some .checked
  | .checking ((id, check) :: checks) =>
    match store.findSession id with
    | none => none
    | some session => if check.passes session then some (.checking checks) else none
  | .checked => some (.classifying (subagentIds store delegationId) [])
  | .classifying [] read => some (.classified .done read)
  | .classifying (id :: remaining) read =>
    match store.findSession id with
    | none => none
    | some session =>
      match session.activeBranch with
      | .error _ => none
      | .ok history =>
        let read := read ++ [(id, session.endsFailed)]
        if terminalSubagentStatus history = some "failed" then
          some (.classified .doneWithFailures read)
        else some (.classifying remaining read)
  | .classified _ _ => none

/-- A status that was committed, and whether a subagent had failed then. -/
structure CommittedOutcome where
  delegationId : String
  status : DelegationStatus
  failed : Bool
deriving DecidableEq

structure BarrierState where
  store : DelegationStore
  runs : List BarrierRun
  outcomes : List CommittedOutcome

/-- Delegations are launched and torn down, subagents spawned, sessions worked on, each
in one transaction; and any number of barriers run, step by step, or are given up. -/
inductive BarrierStep where
  | call (call : DelegationCall)
  | spawn (delegationId : String) (index : Nat) (fork : ContextFork)
  | work (sessionId : String) (delegation : Delegation) (change : ChildSession → ChildSession)
  | begin (delegationId : String)
  | advance (index : Nat)
  | abort (index : Nat)

namespace BarrierState

def anyFailed (store : DelegationStore) (delegationId : String) : Bool :=
  (store.subagents delegationId).any SessionRow.endsFailed

variable (state : BarrierState)

def claim (run : BarrierRun) (status : DelegationStatus) : BarrierState :=
  let delegation := run.delegation
  let claimed := state.store.finishDelegation delegation.id delegation.attemptId status
  { state with
    store := claimed.1
    outcomes :=
      if claimed.2 then
        { delegationId := delegation.id
          status
          failed := anyFailed state.store delegation.id } :: state.outcomes
      else state.outcomes }

def advanceRun (index : Nat) (run : BarrierRun) : BarrierState :=
  match run.stage with
  | .classified status _ => { state.claim run status with runs := state.runs.eraseIdx index }
  | _ =>
    match run.advance state.store with
    | none => { state with runs := state.runs.eraseIdx index }
    | some stage => { state with runs := state.runs.set index { run with stage } }

def step : BarrierStep → Option BarrierState
  | .call (.finish _ _ _ _) | .call (.sessionWork _) => none
  | .call call =>
    let history : DelegationHistory := { store := state.store, winners := [] }
    some { state with store := (history.call call).store }
  | .spawn delegationId index fork =>
    match state.store.findDelegation delegationId with
    | none => none
    | some row =>
      if state.store.hasSession fork.childSessionId then none
      else some { state with store := state.store.createContextFork row index fork }
  | .work sessionId delegation change =>
    some { state with store := state.store.onSession sessionId delegation change }
  | .begin delegationId =>
    match state.store.findDelegation delegationId with
    | none => none
    | some row =>
      if row.status != .running then none
      else some { state with runs := state.runs ++ [{ delegation := row, stage := .begun }] }
  | .advance index => state.runs[index]?.map (state.advanceRun index)
  | .abort index => some { state with runs := state.runs.eraseIdx index }

/-- Nothing has been delegated yet. -/
def Initial : Prop :=
  state.store.delegations = [] ∧ (state.store.sessions.map SessionRow.id).Nodup
    ∧ state.runs = [] ∧ state.outcomes = []

def barriers : Machine BarrierState BarrierStep := .ofSteps Initial step

/-- The statuses that were committed tell how the subagents had ended. -/
def OutcomesTrue : Prop :=
  ∀ outcome ∈ state.outcomes,
    (outcome.status = .doneWithFailures ↔ outcome.failed = true)
      ∧ (outcome.failed = false → outcome.status = .done)

/-- A subagent at the end of a turn has ended as it was read. -/
def StandsAsRead (store : DelegationStore) (entry : String × Bool) : Prop :=
  ∀ session, store.findSession entry.1 = some session →
    session.activeLeafIsTurnBoundary = true → session.endsFailed = entry.2

/-- A subagent whose reading decides the status of a barrier in progress does not come to
the end of a turn that ends otherwise. -/
def EndsAsRead : BarrierStep → Prop
  | .work sessionId delegation change =>
    ∀ run ∈ state.runs, ∀ entry ∈ run.stage.decisive, entry.1 = sessionId →
      StandsAsRead (state.store.onSession sessionId delegation change) entry
  | _ => True

end BarrierState

/-- Delegations keep their size, and subagents are only added. -/
structure StoreGrows (before after : DelegationStore) : Prop where
  delegations : ∀ row ∈ before.delegations, ∃ next ∈ after.delegations,
    next.id = row.id ∧ next.expectedSubagents = row.expectedSubagents
  subagents : ∀ delegationId, subagentIds before delegationId <+: subagentIds after delegationId

/-- There are no fewer subagents than the delegation is to have. -/
def Filled (store : DelegationStore) (delegationId : String) (count : Nat) : Prop :=
  ∃ row ∈ store.delegations, row.id = delegationId ∧ row.expectedSubagents ≤ count

variable {before after store : DelegationStore} {delegationId : String}

theorem Filled.grows {count more : Nat} (filled : Filled before delegationId count)
    (grows : StoreGrows before after) (atMost : count ≤ more) : Filled after delegationId more := by
  obtain ⟨row, mem, rfl, _⟩ := filled
  obtain ⟨next, inAfter, named, _⟩ := grows.delegations row mem
  exact ⟨next, inAfter, named, by omega⟩

/-- Subagents that have been read: all that there are to be, and none had failed. -/
structure ReadThrough (store : DelegationStore) (delegationId : String)
    (read : List (String × Bool)) (remaining : List String) : Prop where
  filled : Filled store delegationId (read.map Prod.fst ++ remaining).length
  listed : read.map Prod.fst ++ remaining <+: subagentIds store delegationId
  fine : ∀ entry ∈ read, entry.2 = false

variable {read : List (String × Bool)}

theorem ReadThrough.grows {remaining : List String}
    (through : ReadThrough before delegationId read remaining) (grows : StoreGrows before after) :
    ReadThrough after delegationId read remaining where
  filled := through.filled.grows grows (Nat.le_refl _)
  listed := through.listed.trans (grows.subagents delegationId)
  fine := through.fine

/-- What has been found out at each stage. -/
def SoundStage (store : DelegationStore) (delegationId : String) : BarrierStage → Prop
  | .begun => True
  | .checking _ | .checked => Filled store delegationId (subagentIds store delegationId).length
  | .classifying remaining read => ReadThrough store delegationId read remaining
  | .classified status read =>
    status = .doneWithFailures ∧ (∃ id ∈ subagentIds store delegationId, (id, true) ∈ read)
      ∨ status = .done ∧ ReadThrough store delegationId read []

theorem SoundStage.grows {stage : BarrierStage} (sound : SoundStage before delegationId stage)
    (grows : StoreGrows before after) : SoundStage after delegationId stage := by
  cases stage with
  | begun => trivial
  | checking | checked => exact Filled.grows sound grows (grows.subagents delegationId).length_le
  | classifying => exact ReadThrough.grows sound grows
  | classified =>
    rcases sound with ⟨failures, id, listed, failed⟩ | ⟨done, through⟩
    · exact .inl ⟨failures, id, (grows.subagents delegationId).subset listed, failed⟩
    · exact .inr ⟨done, through.grows grows⟩

theorem subagentIds_of_filled {row : DelegationRow}
    (found : store.findDelegation delegationId = some row)
    (counted : ((subagentIds store delegationId).length : Int) = row.expectedSubagents) :
    Filled store delegationId (subagentIds store delegationId).length :=
  ⟨row, mem_of_find?_eq_some found, by simpa using find?_some found, by omega⟩

theorem BarrierRun.advance_sound {run : BarrierRun} {stage : BarrierStage}
    (sound : SoundStage store run.delegation.id run.stage)
    (advances : run.advance store = some stage) : SoundStage store run.delegation.id stage := by
  rw [advance.eq_def] at advances
  simp only at advances
  split at advances
  · split at advances
    · cases advances
    · rename_i row found
      split at advances
      · cases advances
      · rename_i counted
        cases advances
        exact subagentIds_of_filled found (by simpa using counted)
  · rename_i hStage
    cases advances
    rw [hStage] at sound
    exact sound
  · rename_i id check checks hStage
    rw [hStage] at sound
    split at advances
    · cases advances
    · split at advances
      · cases advances
        exact sound
      · cases advances
  · rename_i hStage
    rw [hStage] at sound
    cases advances
    refine ⟨?_, ?_, ?_⟩
    · exact sound
    · exact prefix_rfl
    · nofun
  · rename_i read hStage
    rw [hStage] at sound
    cases advances
    exact .inr ⟨rfl, sound⟩
  · rename_i id remaining read hStage
    rw [hStage] at sound
    have listed := sound.listed.subset (mem_append_right _ (.head _))
    split at advances
    · cases advances
    · rename_i session found
      split at advances
      · cases advances
      · rename_i history branch
        have failed := terminalSubagentStatus_failed_iff branch
        split at advances
        · rename_i isFailed
          cases advances
          refine .inl ⟨rfl, id, listed, mem_append_right _ ?_⟩
          rw [failed.mp isFailed]
          exact .head _
        · rename_i notFailed
          cases advances
          have appended : (read ++ [(id, session.endsFailed)]).map Prod.fst ++ remaining =
              read.map Prod.fst ++ id :: remaining := by simp
          refine ⟨?_, ?_, ?_⟩
          · rw [appended]
            exact sound.filled
          · rw [appended]
            exact sound.listed
          · intro entry mem
            rcases Library.mem_concat.mp mem with before | rfl
            · exact sound.fine entry before
            · simpa [failed] using notFailed
  · cases advances

theorem subagentIds_map {change : SessionRow → SessionRow}
    (moved : after.sessions = before.sessions.map change)
    (keeps : ∀ session, (change session).id = session.id
      ∧ (change session).delegationId = session.delegationId) (delegationId : String) :
    subagentIds after delegationId = subagentIds before delegationId := by
  rw [subagentIds, subagentIds, subagents, subagents, moved, List.filter_map, List.map_map]
  have sameTest : ((fun session : SessionRow => session.delegationId == some delegationId)
      ∘ change) = fun session => session.delegationId == some delegationId := by
    funext session
    rw [Function.comp_apply, (keeps session).2]
  rw [sameTest]
  exact map_congr_left fun session _ => (keeps session).1

/-- A change of sessions leaves who they are and where their branches end. -/
structure KeepsEnds (change : SessionRow → SessionRow) : Prop where
  id : ∀ session, (change session).id = session.id
  delegationId : ∀ session, (change session).delegationId = session.delegationId
  boundary : ∀ session,
    (change session).activeLeafIsTurnBoundary = session.activeLeafIsTurnBoundary
  failed : ∀ session, (change session).endsFailed = session.endsFailed

variable (history : DelegationHistory)

theorem sessions_of_call {call : DelegationCall}
    (settled : ∀ sessions, call ≠ .sessionWork sessions) :
    ∃ change, (history.call call).store.sessions = history.store.sessions.map change
      ∧ KeepsEnds change := by
  have same {after : DelegationStore} (sessions : after.sessions = history.store.sessions) :
      ∃ change, after.sessions = history.store.sessions.map change ∧ KeepsEnds change :=
    ⟨id, by rw [List.map_id, sessions], fun _ => rfl, fun _ => rfl, fun _ => rfl, fun _ => rfl⟩
  have performs := history.call_performs call
  generalize history.call call = after at performs
  cases performs with
  | nothing => exact same rfl
  | creates creates => exact same (createDelegationIdempotent_ok creates).1
  | moves moves step keeps ending =>
    obtain ⟨-, rfl⟩ := moveDelegation_some moves
    obtain isMoved | isMoved := ending
    · apply same
      rw [isMoved]
    · refine ⟨_, congrArg DelegationStore.sessions isMoved, ?_, ?_, ?_, ?_⟩
      all_goals
        intro session
        split <;> rfl
  | settles sessions => exact absurd rfl (settled sessions)

theorem subagentIds_onSession (store : DelegationStore) (sessionId : String)
    (delegation : Delegation) (change : ChildSession → ChildSession) (delegationId : String) :
    subagentIds (store.onSession sessionId delegation change) delegationId =
      subagentIds store delegationId := by
  refine subagentIds_map rfl ?_ delegationId
  intro session
  split <;> exact ⟨rfl, rfl⟩

theorem subagentIds_call {call : DelegationCall}
    (settled : ∀ sessions, call ≠ .sessionWork sessions) (delegationId : String) :
    subagentIds (history.call call).store delegationId =
      subagentIds history.store delegationId := by
  obtain ⟨_, moved, keeps⟩ := sessions_of_call history settled
  exact subagentIds_map moved (fun session => ⟨keeps.id session, keeps.delegationId session⟩) _

theorem StoreGrows.call {call : DelegationCall}
    (settled : ∀ sessions, call ≠ .sessionWork sessions) :
    StoreGrows history.store (history.call call).store where
  delegations := by
    intro row mem
    obtain ⟨next, inAfter, move⟩ := (history.call_step call).delegations.1.successor mem
    exact ⟨next, inAfter, move.id, move.expectedSubagents⟩
  subagents := by
    intro delegationId
    exact ⟨[], by rw [append_nil, subagentIds_call history settled delegationId]⟩

theorem StoreGrows.spawn (store : DelegationStore) (row : DelegationRow) (index : Nat)
    (fork : ContextFork) : StoreGrows store (store.createContextFork row index fork) where
  delegations := fun row mem => ⟨row, mem, rfl, rfl⟩
  subagents := by
    intro delegationId
    rw [subagentIds, subagentIds, DelegationStore.subagents, DelegationStore.subagents,
      createContextFork, filter_append, map_append]
    exact prefix_append _ _

theorem StoreGrows.work (store : DelegationStore) (sessionId : String) (delegation : Delegation)
    (change : ChildSession → ChildSession) :
    StoreGrows store (store.onSession sessionId delegation change) where
  delegations := fun row mem => ⟨row, mem, rfl, rfl⟩
  subagents := by
    intro delegationId
    exact ⟨[], by rw [append_nil, subagentIds_onSession]⟩

namespace BarrierState

/-- What decides the status of a run stands as it was read. -/
def ReadsStand (store : DelegationStore) (stage : BarrierStage) : Prop :=
  ∀ entry ∈ stage.decisive,
    (store.findSession entry.1).isSome = true ∧ StandsAsRead store entry

/-- Sessions stay, and stay at the ends that they are at. -/
def EndsKept (before after : DelegationStore) : Prop :=
  ∀ id session, before.findSession id = some session → ∃ later, after.findSession id = some later
    ∧ later.activeLeafIsTurnBoundary = session.activeLeafIsTurnBoundary
    ∧ later.endsFailed = session.endsFailed

theorem ReadsStand.kept {stage : BarrierStage} (stand : ReadsStand before stage)
    (kept : EndsKept before after) : ReadsStand after stage := by
  intro entry decides
  obtain ⟨isStored, asRead⟩ := stand entry decides
  obtain ⟨session, found⟩ := isSome_iff_exists.mp isStored
  obtain ⟨later, foundLater, boundary, failed⟩ := kept _ _ found
  refine ⟨by rw [foundLater, isSome_some], fun other isOther atBoundary => ?_⟩
  cases foundLater.symm.trans isOther
  rw [failed]
  exact asRead session found (boundary.symm.trans atBoundary)

theorem EndsKept.call {call : DelegationCall} (settled : ∀ sessions, call ≠ .sessionWork sessions) :
    EndsKept history.store (history.call call).store := by
  obtain ⟨change, moved, keeps⟩ := sessions_of_call history settled
  intro id session found
  refine ⟨change session, ?_, keeps.boundary session, keeps.failed session⟩
  have sameTest : ((·.id == id) ∘ change) = fun session : SessionRow => session.id == id := by
    funext session
    rw [Function.comp_apply, keeps.id]
  rw [findSession, moved, find?_map, sameTest]
  exact congrArg (Option.map change) found

theorem EndsKept.spawn (store : DelegationStore) (row : DelegationRow) (index : Nat)
    (fork : ContextFork) : EndsKept store (store.createContextFork row index fork) := by
  intro id session found
  refine ⟨session, ?_, rfl, rfl⟩
  rw [findSession, createContextFork, find?_append]
  rw [findSession] at found
  rw [found, some_or]

/-- A reading that decides was decisive before the next one, or it is the next one. -/
theorem BarrierRun.decisive_of_advance {run : BarrierRun} {stage : BarrierStage}
    (advances : run.advance store = some stage) {entry : String × Bool}
    (decides : entry ∈ stage.decisive) : entry ∈ run.stage.decisive ∨
      ∃ session, store.findSession entry.1 = some session ∧ session.endsFailed = entry.2 := by
  rw [BarrierRun.advance.eq_def] at advances
  simp only at advances
  split at advances
  · split at advances
    · cases advances
    · split at advances
      · cases advances
      · cases advances
        cases decides
  · cases advances
    cases decides
  · split at advances
    · cases advances
    · split at advances
      · cases advances
        cases decides
      · cases advances
  · cases advances
    cases decides
  · rename_i read hStage
    cases advances
    left
    rwa [hStage]
  · rename_i id remaining read hStage
    split at advances
    · cases advances
    · rename_i session found
      split at advances
      · cases advances
      · have next : entry ∈ (BarrierStage.classifying remaining
            (read ++ [(id, session.endsFailed)])).decisive := by
          split at advances
          all_goals
            cases advances
            exact decides
        simp only [BarrierStage.decisive, BarrierStage.read, mem_filter, any_append] at next
        rw [hStage]
        obtain ⟨isRead, deciding⟩ := next
        rcases Library.mem_concat.mp isRead with before | rfl
        · left
          simp only [BarrierStage.decisive, BarrierStage.read, mem_filter]
          refine ⟨before, ?_⟩
          rw [Bool.or_eq_true] at deciding ⊢
          refine deciding.imp_right fun none => ?_
          rw [Bool.not_or, Bool.and_eq_true] at none
          exact none.1
        · exact .inr ⟨session, found, rfl⟩
  · cases advances

/-- The delegations are sound, every run has found out what its stage says and stands by what
it has read, and the committed statuses are true. -/
structure Sound (state : BarrierState) : Prop where
  delegations : DelegationHistory.Sound { store := state.store, winners := [] }
  sessions : (state.store.sessions.map SessionRow.id).Nodup
  runs : ∀ run ∈ state.runs, SoundStage state.store run.delegation.id run.stage
  reads : ∀ run ∈ state.runs, ReadsStand state.store run.stage
  outcomes : OutcomesTrue state

theorem sessionIds_call (history : DelegationHistory) {call : DelegationCall}
    (settled : ∀ sessions, call ≠ .sessionWork sessions)
    (distinct : (history.store.sessions.map SessionRow.id).Nodup) :
    ((history.call call).store.sessions.map SessionRow.id).Nodup := by
  obtain ⟨change, moved, keeps⟩ := sessions_of_call history settled
  have sameIds : SessionRow.id ∘ change = SessionRow.id := funext keeps.id
  rwa [moved, List.map_map, sameIds]

theorem sound_call {store : DelegationStore}
    (sound : DelegationHistory.Sound { store, winners := [] }) (call : DelegationCall) :
    DelegationHistory.Sound
      { store := (({ store, winners := [] } : DelegationHistory).call call).store
        winners := [] } := by
  have after := sound.step (DelegationHistory.call_step _ call)
  exact ⟨after.distinct, after.targets, fun _ mem => absurd mem not_mem_nil, nodup_nil⟩

variable {state : BarrierState} {run : BarrierRun}

section

variable (sound : Sound state)
include sound

section

variable {status : DelegationStatus}
  (stage : SoundStage state.store run.delegation.id (.classified status read))
  (reads : ReadsStand state.store (.classified status read))
include stage reads

/-- The status a barrier claims is the one its children have. -/
theorem anyFailed_of_claim {prior : DelegationRow} (mem : prior ∈ state.store.delegations)
    (named : prior.id = run.delegation.id)
    (ready : state.store.readyToFinish run.delegation.id prior.expectedSubagents) :
    (status = .doneWithFailures ∧ anyFailed state.store run.delegation.id)
      ∨ (status = .done ∧ anyFailed state.store run.delegation.id = false) := by
  simp only [readyToFinish, Bool.and_eq_true, beq_iff_eq] at ready
  obtain ⟨⟨counted, -⟩, idle⟩ := ready
  -- The claim looks at who is idle, and who is idle stands at a boundary.
  have endsAsRead (session : SessionRow)
      (inSubagents : session ∈ state.store.subagents run.delegation.id) (flag : Bool)
      (decides : (session.id, flag) ∈ (BarrierStage.classified status read).decisive) :
      session.endsFailed = flag := by
    have isIdle := List.all_eq_true.mp idle session inSubagents
    simp only [SessionRow.isIdle, Bool.and_eq_true] at isIdle
    have found : state.store.findSession session.id = some session := by
      obtain ⟨other, found⟩ := isSome_iff_exists.mp (reads _ decides).1
      have sameId : other.id = session.id := by simpa using find?_some found
      rw [found, inj_on_of_nodup_map sound.sessions (mem_of_find?_eq_some found)
        (mem_of_mem_filter inSubagents) sameId]
    exact (reads _ decides).2 session found isIdle.2
  rcases stage with ⟨failures, id, listed, isRead⟩ | ⟨done, through⟩
  · refine .inl ⟨failures, ?_⟩
    obtain ⟨session, inSubagents, rfl⟩ := mem_map.mp listed
    have decides : (session.id, true) ∈ (BarrierStage.classified status read).decisive :=
      mem_filter.mpr ⟨isRead, rfl⟩
    exact List.any_eq_true.mpr ⟨session, inSubagents, endsAsRead session inSubagents true decides⟩
  · refine .inr ⟨done, ?_⟩
    obtain ⟨_, inStore, sameId, enough⟩ := through.filled
    obtain rfl := inj_on_of_nodup_map sound.delegations.distinct inStore mem
      (sameId.trans named.symm)
    have listed := through.listed
    rw [append_nil] at listed enough
    have all : read.map Prod.fst = subagentIds state.store run.delegation.id := by
      apply listed.eq_of_length_le
      rw [subagentIds, length_map]
      omega
    rw [anyFailed, List.any_eq_false]
    intro session inSubagents
    have isListed : session.id ∈ read.map Prod.fst := by
      rw [all]
      exact mem_map_of_mem inSubagents
    obtain ⟨⟨_, flag⟩, isRead, rfl⟩ := mem_map.mp isListed
    obtain rfl : flag = false := through.fine _ isRead
    have noneFailed : read.any Prod.snd = false := by
      rw [List.any_eq_false]
      intro entry isRead
      rw [through.fine entry isRead]
      decide
    have decides : (session.id, false) ∈ (BarrierStage.classified status read).decisive :=
      mem_filter.mpr ⟨isRead, by simp [BarrierStage.read, noneFailed]⟩
    rw [endsAsRead session inSubagents false decides]
    decide

theorem Sound.claim : Sound (state.claim run status) := by
  have completes : status = .done ∨ status = .doneWithFailures := by
    rcases stage with ⟨failures, -⟩ | ⟨done, -⟩
    · exact .inr failures
    · exact .inl done
  let call : DelegationCall := .finish run.delegation.id run.delegation.attemptId status completes
  have settled : ∀ sessions, call ≠ .sessionWork sessions := fun _ => DelegationCall.noConfusion
  refine ⟨sound_call sound.delegations call, ?_, ?_, ?_, ?_⟩
  · exact sessionIds_call { store := state.store, winners := [] } settled sound.sessions
  · intro other isRun
    have grows := StoreGrows.call { store := state.store, winners := [] } settled
    exact (sound.runs other isRun).grows grows
  · intro other isRun
    have kept := EndsKept.call { store := state.store, winners := [] } settled
    exact (sound.reads other isRun).kept kept
  · intro outcome mem
    rw [BarrierState.claim] at mem
    rcases state.store.finishDelegation_cases run.delegation.id run.delegation.attemptId status with
      missed | ⟨prior, inStore, moved, row, admitted, ready, -, finished⟩
    · rw [missed] at mem
      exact sound.outcomes outcome mem
    · simp only [finished, if_true] at mem
      rcases mem_cons.mp mem with rfl | before
      · have named : prior.id = run.delegation.id := by
          simp only [DelegationRow.isAttempt, Bool.and_eq_true, beq_iff_eq] at admitted
          exact admitted.1.1
        rcases anyFailed_of_claim sound stage reads inStore named ready with
          ⟨rfl, failed⟩ | ⟨rfl, fine⟩
        · simp [failed]
        · simp [fine]
      · exact sound.outcomes outcome before

end

theorem Sound.eraseRun (index : Nat) : Sound { state with runs := state.runs.eraseIdx index } where
  delegations := sound.delegations
  sessions := sound.sessions
  runs := fun run isRun => sound.runs run ((eraseIdx_sublist _ _).subset isRun)
  reads := fun run isRun => sound.reads run ((eraseIdx_sublist _ _).subset isRun)
  outcomes := sound.outcomes

theorem Sound.advanceRun {index : Nat} (picked : state.runs[index]? = some run) :
    Sound (state.advanceRun index run) := by
  have isRun := mem_of_getElem? picked
  have stage := sound.runs run isRun
  have reads := sound.reads run isRun
  rw [BarrierState.advanceRun]
  split
  · rename_i status read hStage
    rw [hStage] at stage reads
    exact (sound.claim stage reads).eraseRun index
  · split
    · exact sound.eraseRun index
    · rename_i next advances
      refine ⟨sound.delegations, sound.sessions, ?_, ?_, sound.outcomes⟩
      · intro other isRun
        rcases mem_or_eq_of_mem_set isRun with before | rfl
        · exact sound.runs other before
        · exact run.advance_sound stage advances
      · intro other isRun
        rcases mem_or_eq_of_mem_set isRun with before | rfl
        · exact sound.reads other before
        · intro entry decides
          rcases BarrierRun.decisive_of_advance advances decides with
            before | ⟨session, found, same⟩
          · exact reads entry before
          · refine ⟨by rw [found, isSome_some], fun again isFound _ => ?_⟩
            cases found.symm.trans isFound
            exact same

theorem ReadsStand.work {sessionId : String} {delegation : Delegation}
    {change : ChildSession → ChildSession}
    (asRead : EndsAsRead state (.work sessionId delegation change)) (isRun : run ∈ state.runs) :
    ReadsStand (state.store.onSession sessionId delegation change) run.stage := by
  intro entry decides
  obtain ⟨isStored, stood⟩ := sound.reads run isRun entry decides
  obtain ⟨session, found⟩ := isSome_iff_exists.mp isStored
  have moved : (state.store.onSession sessionId delegation change).findSession entry.1 =
      some (if session.id == sessionId then session.become (change (session.under delegation))
        else session) := by
    have sameTest : ((·.id == entry.1) ∘ fun session : SessionRow =>
        if session.id == sessionId then session.become (change (session.under delegation))
          else session) = fun session : SessionRow => session.id == entry.1 := by
      funext session
      rw [Function.comp_apply]
      split <;> rfl
    rw [findSession, onSession, find?_map, sameTest]
    exact congrArg (Option.map _) found
  refine ⟨by rw [moved, isSome_some], ?_⟩
  by_cases own : entry.1 = sessionId
  · exact asRead run isRun entry decides own
  · intro later isLater atBoundary
    cases moved.symm.trans isLater
    have sameId : session.id = entry.1 := by simpa using find?_some found
    rw [if_neg (by simpa [sameId] using own)] at atBoundary ⊢
    exact stood session found atBoundary

/-- A step that reads what still stands keeps every outcome true. -/
theorem Sound.step {after : BarrierState} {label : BarrierStep} (asRead : EndsAsRead state label)
    (stepped : state.step label = some after) : Sound after := by
  cases label with
  | call call =>
    have settled : (∀ sessions, call ≠ .sessionWork sessions) ∧ after = { state with
        store := (({ store := state.store, winners := [] } : DelegationHistory).call call).store } := by
      cases call with
      | finish | sessionWork => cases stepped
      | _ => exact ⟨fun _ => nofun, (Option.some.inj stepped).symm⟩
    obtain ⟨settled, rfl⟩ := settled
    refine ⟨sound_call sound.delegations call, ?_, ?_, ?_, sound.outcomes⟩
    · exact sessionIds_call { store := state.store, winners := [] } settled sound.sessions
    · intro run isRun
      have grows := StoreGrows.call { store := state.store, winners := [] } settled
      exact (sound.runs run isRun).grows grows
    · intro run isRun
      have kept := EndsKept.call { store := state.store, winners := [] } settled
      exact (sound.reads run isRun).kept kept
  | spawn =>
    rw [BarrierState.step] at stepped
    split at stepped
    · cases stepped
    · rename_i row found
      split at stepped
      · cases stepped
      · rename_i unknown
        cases stepped
        refine ⟨?_, ?_, fun run isRun => (sound.runs run isRun).grows (.spawn _ _ _ _),
          fun run isRun => (sound.reads run isRun).kept (.spawn _ _ _ _), sound.outcomes⟩
        · exact ⟨sound.delegations.distinct, sound.delegations.targets, sound.delegations.ended,
            sound.delegations.once⟩
        · rw [createContextFork, map_append]
          refine sound.sessions.append (nodup_singleton _) ?_
          rw [map_singleton, disjoint_singleton, List.mem_map]
          rintro ⟨session, stored, same⟩
          exact unknown (List.any_eq_true.mpr ⟨session, stored, beq_iff_eq.mpr same⟩)
  | work sessionId delegation change =>
    cases stepped
    refine ⟨?_, ?_, fun run isRun => (sound.runs run isRun).grows (.work _ _ _ _),
      fun run isRun => ReadsStand.work sound asRead isRun, sound.outcomes⟩
    · exact ⟨sound.delegations.distinct, sound.delegations.targets, sound.delegations.ended,
        sound.delegations.once⟩
    · rw [onSession, List.map_map]
      have sameIds : (SessionRow.id ∘ fun session : SessionRow =>
          if session.id == sessionId then session.become (change (session.under delegation))
            else session) = SessionRow.id := by
        funext session
        rw [Function.comp_apply]
        split <;> rfl
      rw [sameIds]
      exact sound.sessions
  | begin =>
    rw [BarrierState.step] at stepped
    split at stepped
    · cases stepped
    · split at stepped
      · cases stepped
      · cases stepped
        refine ⟨sound.delegations, sound.sessions, ?_, ?_, sound.outcomes⟩
        · intro run isRun
          rcases Library.mem_concat.mp isRun with before | rfl
          · exact sound.runs run before
          · trivial
        · intro run isRun
          rcases Library.mem_concat.mp isRun with before | rfl
          · exact sound.reads run before
          · exact fun _ decides => absurd decides not_mem_nil
  | advance index =>
    obtain ⟨run, picked, rfl⟩ := map_eq_some_iff.mp stepped
    exact sound.advanceRun picked
  | abort =>
    cases stepped
    exact sound.eraseRun _

end

theorem Initial.sound (initially : Initial state) : Sound state := by
  obtain ⟨empty, distinct, idle, quiet⟩ := initially
  refine ⟨⟨?_, ?_, fun _ mem => absurd mem not_mem_nil, nodup_nil⟩, distinct, ?_, ?_, ?_⟩
  · rw [empty]
    exact nodup_nil
  · rw [empty]
    exact fun _ mem => absurd mem not_mem_nil
  · rw [idle]
    exact fun _ mem => absurd mem not_mem_nil
  · rw [idle]
    exact fun _ mem => absurd mem not_mem_nil
  · rw [OutcomesTrue, quiet]
    exact fun _ mem => absurd mem not_mem_nil

/-- In every run in which no subagent that a barrier in progress has read comes to the end of
a turn that ends otherwise, the committed statuses are true. -/
theorem committed_outcome_true {state : BarrierState}
    (reaches : (barriers.guarded EndsAsRead).Reaches state) : OutcomesTrue state := by
  have sound : Sound state := by
    apply reaches.invariant
    · exact fun state initially => Initial.sound initially
    · rintro state label after _ sound ⟨asRead, stepped⟩
      exact sound.step asRead stepped
  exact sound.outcomes

def beginTurn (sessionId : String) (turnId : TurnId) (parentId : Option EntryId)
    (input : TakenInput) (message : UserMessage) : BarrierStep :=
  let entry (id : String) (parentId : Option EntryId) (item : TranscriptItem) :
      TranscriptStorageNode :=
    { id := sessionId ++ "_" ++ toString turnId ++ id
      parentId
      timestampMs := turnId
      item
      providerReplay := [] }
  let started := entry "_start" parentId (.turnStarted turnId)
  let asked := entry "_user" (some started.id) (.userMessage message)
  let batch : ChildOutputBatch :=
    { entries := [started, asked]
      activeLeafId := some asked.id
      sessionEvents := []
      actions :=
        [some
          { id := sessionId ++ "_action_" ++ toString turnId
            attemptId := "attempt"
            action :=
              { status := .pending
                actionId := turnId
                turnId
                payload := .model (some asked.id) }
            postCompactionDispatch := none }]
      actionUpdate := none
      consumedInput := some input
      controlInterruptInputId := none }
  .work sessionId { id := "delegation", parentSessionId := "parent", status := .running }
    fun child => (child.persistOutputs batch turnId).getD child

/-- It ends with an answer, or it is interrupted. -/
def endTurn (sessionId : String) (turnId : TurnId) (outcome : TurnOutcome) : BarrierStep :=
  let entry (id : String) (parentId : Option EntryId) (item : TranscriptItem) :
      TranscriptStorageNode :=
    { id := sessionId ++ "_" ++ toString turnId ++ id
      parentId
      timestampMs := turnId
      item
      providerReplay := [] }
  let asked := sessionId ++ "_" ++ toString turnId ++ "_user"
  let answer := entry "_answer" (some asked) (.assistantMessage { items := [.text "found"] })
  let batch : ChildOutputBatch :=
    match outcome with
    | .graceful =>
      { entries := [answer, entry "_end" (some answer.id) (.turnFinished turnId .graceful)]
        activeLeafId := some (sessionId ++ "_" ++ toString turnId ++ "_end")
        sessionEvents := [.actionCompleted .model (toString turnId)]
        actions := []
        actionUpdate := some
          { rowId := sessionId ++ "_action_" ++ toString turnId
            attemptId := "attempt"
            lease := none
            status := .completed }
        consumedInput := none
        controlInterruptInputId := none }
    | outcome =>
      { entries := [entry "_end" (some asked) (.turnFinished turnId outcome)]
        activeLeafId := some (sessionId ++ "_" ++ toString turnId ++ "_end")
        sessionEvents := []
        actions := [none]
        actionUpdate := none
        consumedInput := none
        controlInterruptInputId := none }
  .work sessionId { id := "delegation", parentSessionId := "parent", status := .running }
    fun child => (child.persistOutputs batch turnId).getD child

/-- Two subagents are launched and end their first turns well. -/
def fanOut : List BarrierStep :=
  let request : CreateDelegationRequest :=
    { parentSessionId := "parent"
      launchKey := "launch"
      launchShape := "shape"
      kind := .readonlyFanout
      workflow := none
      label := none
      expectedSubagents := 2 }
  let fork (sessionId : String) : ContextFork :=
    { childSessionId := sessionId
      subagentType := .readOnly
      entries := []
      activeLeafId := none
      inputId := sessionId ++ "_task"
      task := .text "look"
      createdAt := 1 }
  let task (sessionId : String) : TakenInput :=
    { id := sessionId ++ "_task"
      content := .input (.userMessage (.text "look"))
      priority := .followUp
      claimId := ""
      rowVersion := 0 }
  [.call (.create request { id := "delegation", attemptId := "attempt" }),
    .spawn "delegation" 0 (fork "first"), .spawn "delegation" 1 (fork "second"),
    beginTurn "first" 1 none (task "first") (.text "look"), endTurn "first" 1 .graceful,
    beginTurn "second" 1 none (task "second") (.text "look"), endTurn "second" 1 .graceful]

/-- A barrier runs until it has read the branches of two subagents. -/
def classifies : List BarrierStep := .begin "delegation" :: List.replicate 11 (.advance 0)

def sentOn (turnId : TurnId) (leafId : EntryId) (inputId : String) : List BarrierStep :=
  let context : ControlContext :=
    { reusedByOtherChild := false
      routeRead := .ok ()
      inputId
      createdAt := 2
      promotedAt := 2 }
  let input : TakenInput :=
    { id := inputId
      content := .input (.userMessage (.text "look again"))
      priority := .followUp
      claimId := ""
      rowVersion := 0 }
  [.work "second" { id := "delegation", parentSessionId := "parent", status := .running }
      fun child =>
        child.enqueueUserInput .followUp (.userMessage (.text "look again")) none context,
    beginTurn "second" turnId (some leafId) input (.text "look again"),
    endTurn "second" turnId .interrupted]

def parentOnly : BarrierState where
  store :=
    { delegations := []
      sessions :=
        [{ id := "parent"
           parentSessionId := none
           delegationId := none
           delegationSpawnIndex := none
           subagentType := none
           entries := []
           activeLeafId := none
           actions := []
           mailbox := [] }] }
  runs := []
  outcomes := []

theorem parentOnly_initial : Initial parentOnly :=
  ⟨rfl, nodup_singleton _, rfl, rfl⟩

/-- The committed status can be wrong: `done` is claimed while a subagent stands at the
end of an interrupted turn. -/
theorem committed_outcome_overtaken :
    ¬ ∀ state, barriers.Reaches state → OutcomesTrue state := by
  intro always
  have ran : ((fanOut ++ classifies ++ [BarrierStep.advance 0] ++ sentOn 2 "second_1_end" "more"
      ++ [BarrierStep.advance 0]).foldlM step parentOnly).map outcomes =
        some [{ delegationId := "delegation", status := .done, failed := true }] := by
    decide +kernel
  obtain ⟨state, enabled, committed⟩ := map_eq_some_iff.mp ran
  have holds := always state (.run (.start parentOnly_initial) enabled) _
    (by rw [committed]; exact mem_singleton_self _)
  exact absurd (holds.1.mpr rfl) (by decide)

/-- The condition, as a test of the next step. -/
def asReadCheck (state : BarrierState) : BarrierStep → Bool
  | .work sessionId delegation change =>
    state.runs.all fun run => run.stage.decisive.all fun entry =>
      entry.1 != sessionId ||
        match (state.store.onSession sessionId delegation change).findSession entry.1 with
        | none => true
        | some session => !session.activeLeafIsTurnBoundary || session.endsFailed == entry.2
  | _ => true

theorem asReadCheck_sound (state : BarrierState) (label : BarrierStep)
    (checked : asReadCheck state label) : EndsAsRead state label := by
  cases label with
  | work sessionId delegation change =>
    rintro run isRun entry decides rfl session found atBoundary
    have passes := List.all_eq_true.mp (List.all_eq_true.mp checked run isRun) entry decides
    simpa [found, atBoundary] using passes
  | _ => trivial

/-- Of two subagents the second was interrupted before the barrier read it. Before the claim
it is given another input, and interrupted once more. -/
theorem committed_outcome_true_interrupted :
    ∃ state : BarrierState,
      state.outcomes =
          [{ delegationId := "delegation", status := .doneWithFailures, failed := true }]
        ∧ OutcomesTrue state := by
  have ran : ((fanOut ++ sentOn 2 "second_1_end" "more" ++ classifies
      ++ sentOn 3 "second_2_end" "again" ++ [BarrierStep.advance 0]).foldlM
      (fun state label => if asReadCheck state label then step state label else none)
        parentOnly).map outcomes =
        some [{ delegationId := "delegation", status := .doneWithFailures, failed := true }] := by
    decide +kernel
  obtain ⟨state, enabled, committed⟩ := map_eq_some_iff.mp ran
  have reaches : (barriers.guarded EndsAsRead).Reaches state :=
    Machine.Reaches.checkedRun asReadCheck_sound (.start parentOnly_initial) enabled
  exact ⟨state, committed, committed_outcome_true reaches⟩

end BarrierState

end PiRelay.Runtime
