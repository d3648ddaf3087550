import PiRelay.AgentStore.ActiveInputs
import PiRelay.AgentStore.DelegationLifecycle

/-! What a transaction around a delegation may do to the store, and what that leaves
of the things that the other transactions have read. -/
namespace PiRelay.Store

open DelegationStore List


/-- A session stays what it is. Only one that may grow gets new active inputs. -/
structure SessionMove (grows : SessionRow → Prop) (before after : SessionRow) : Prop where
  id : after.id = before.id
  delegationId : after.delegationId = before.delegationId
  delegationSpawnIndex : after.delegationSpawnIndex = before.delegationSpawnIndex
  shrinks : ¬grows before → Shrinks before.mailbox after.mailbox

def SessionsStep (grows : SessionRow → Prop) (before after : List SessionRow) : Prop :=
  ∃ change, after = before.map change ∧ ∀ session, SessionMove grows session (change session)

theorem SessionMove.refl {grows : SessionRow → Prop} (session : SessionRow) :
    SessionMove grows session session :=
  ⟨rfl, rfl, rfl, fun _ => .refl _⟩

theorem SessionsStep.refl {grows : SessionRow → Prop} (sessions : List SessionRow) :
    SessionsStep grows sessions sessions :=
  ⟨id, (map_id _).symm, fun session => .refl session⟩

variable (store : DelegationStore)

variable (delegationId : String)

/-- What a transaction finds in the store about one delegation. -/
def Running : Prop :=
  ∃ row ∈ store.delegations, row.id = delegationId ∧ row.status = .running

def NotRunning : Prop :=
  ∃ row ∈ store.delegations, row.id = delegationId ∧ row.status ≠ .running

/-- Every place of the launch is filled. -/
def Full : Prop :=
  ∃ row ∈ store.delegations, row.id = delegationId
    ∧ ((store.subagents delegationId).length : Int) = row.expectedSubagents

/-- The places that are filled and those that are missing are different places of the
launch. -/
def Room (missing : List Nat) : Prop :=
  ∃ row ∈ store.delegations, row.id = delegationId
    ∧ (store.spawnedIndices delegationId ++ missing.map some).Nodup
    ∧ ∀ place ∈ store.spawnedIndices delegationId ++ missing.map some,
        ∃ index, place = some index ∧ (index : Int) < row.expectedSubagents

/-- No subagent has an active input. -/
def Quiet : Prop :=
  ∀ session ∈ store.subagents delegationId, ∀ input ∈ session.mailbox, input.isActive = false

/-- The active inputs of the subagents are among the selected ones. -/
def Covers (inputIds : List String) : Prop :=
  ∀ session ∈ store.subagents delegationId, ∀ input ∈ session.mailbox,
    input.isActive = true → input.id ∈ inputIds

/-- The row that a transaction read is still there, its status apart. -/
def Known (row : DelegationRow) : Prop :=
  ∃ current ∈ store.delegations, current.id = row.id
    ∧ current.expectedSubagents = row.expectedSubagents

namespace DelegationStore

variable {store before after : DelegationStore} {delegationId : String}

theorem mem_subagents_iff {session : SessionRow} :
    session ∈ store.subagents delegationId ↔
      session ∈ store.sessions ∧ session.delegationId = some delegationId := by
  rw [subagents, mem_filter, beq_iff_eq]

variable {grows : SessionRow → Prop}

section

variable (step : SessionsStep grows before.sessions after.sessions)
include step

theorem subagents_of_step (delegationId : String) :
    ∃ change, after.subagents delegationId = (before.subagents delegationId).map change
      ∧ ∀ session, SessionMove grows session (change session) := by
  obtain ⟨change, moved, moves⟩ := step
  refine ⟨change, ?_, moves⟩
  rw [subagents, subagents, moved, filter_map]
  congr 1
  apply filter_congr
  intro session _
  rw [Function.comp_apply, (moves session).delegationId]

theorem spawnedIndices_of_step (delegationId : String) :
    after.spawnedIndices delegationId = before.spawnedIndices delegationId := by
  obtain ⟨_, moved, moves⟩ := subagents_of_step step delegationId
  rw [spawnedIndices, spawnedIndices, moved, map_map]
  exact map_congr_left fun session _ => (moves session).delegationSpawnIndex

theorem active_of_step (still : ∀ session ∈ before.subagents delegationId, ¬grows session)
    {session : SessionRow} (mem : session ∈ after.subagents delegationId) {input : MailboxRow}
    (inMailbox : input ∈ session.mailbox) (active : input.isActive) :
    ∃ prior ∈ before.subagents delegationId, ∃ earlier ∈ prior.mailbox,
      earlier.isActive ∧ earlier.id = input.id := by
  obtain ⟨_, moved, moves⟩ := subagents_of_step step delegationId
  rw [moved] at mem
  obtain ⟨prior, inBefore, rfl⟩ := mem_map.mp mem
  obtain ⟨earlier, inPrior, wasActive, same⟩ :=
    (moves prior).shrinks (still prior inBefore) input inMailbox active
  exact ⟨prior, inBefore, earlier, inPrior, wasActive, same⟩

end

end DelegationStore

section Steps

variable {store before after : DelegationStore} {delegationId : String}

theorem Quiet.of_step {grows : SessionRow → Prop} (quiet : Quiet before delegationId)
    (step : SessionsStep grows before.sessions after.sessions)
    (still : ∀ session ∈ before.subagents delegationId, ¬grows session) :
    Quiet after delegationId := by
  intro session mem input inMailbox
  rw [← Bool.not_eq_true]
  intro active
  obtain ⟨prior, inBefore, earlier, inPrior, wasActive, -⟩ :=
    active_of_step step still mem inMailbox active
  rw [quiet prior inBefore earlier inPrior] at wasActive
  cases wasActive

theorem Room.missing_eq_nil {missing : List Nat} {expected : Int}
    (distinct : (store.delegations.map DelegationRow.id).Nodup)
    (room : Room store delegationId missing)
    (known : ∃ row ∈ store.delegations, row.id = delegationId ∧ row.expectedSubagents = expected)
    (filled : expected ≤ (store.subagents delegationId).length) : missing = [] := by
  obtain ⟨row, mem, named, nodup, bounded⟩ := room
  obtain ⟨other, otherMember, otherNamed, rfl⟩ := known
  obtain rfl := inj_on_of_nodup_map distinct otherMember mem (otherNamed.trans named.symm)
  have within : store.spawnedIndices delegationId ++ missing.map some ⊆
      (List.range other.expectedSubagents.toNat).map some := by
    intro place inPlaces
    obtain ⟨_, rfl, _⟩ := bounded place inPlaces
    exact mem_map_of_mem (mem_range.mpr (by omega))
  have few := (subperm_of_subset nodup within).length_le
  rw [length_append, length_map, length_map, length_range, spawnedIndices, length_map] at few
  exact length_eq_zero_iff.mp (by omega)

end Steps

/-- Sessions work, and grow only under the lock of a delegation that runs; a row of a
delegation moves under its lock, and does not leave its running state behind active
inputs; a launch that holds its claim fills a place; a delegation is created. -/
inductive StoreEffect (process : StoreProcess) (before after : DelegationStore) : Prop where
  | works (grows : SessionRow → Prop) (same : after.delegations = before.delegations)
      (sessions : SessionsStep grows before.sessions after.sessions)
      (admitted : ∀ session ∈ before.sessions, grows session → ∀ delegationId,
        session.delegationId = some delegationId →
        .delegation delegationId ∈ process.holds ∧ Running before delegationId)
  | moves (delegationId : String) (held : .delegation delegationId ∈ process.holds)
      (change : DelegationRow → DelegationRow)
      (delegations : after.delegations = before.delegations.map change)
      (rows : ∀ row, DelegationMove row (change row)
        ∧ (row.id ≠ delegationId → change row = row))
      (sessions : SessionsStep (fun _ => False) before.sessions after.sessions)
      (ends : Running before delegationId →
        .launch delegationId ∈ process.holds ∨ Full before delegationId)
      (closes : NotRunning after delegationId → Quiet after delegationId)
  | spawns (row : DelegationRow) (index : Nat) (missing : List Nat) (fork : ContextFork)
      (held : .launch row.id ∈ process.holds) (running : Running before row.id)
      (room : Room before row.id (index :: missing))
      (fresh : before.hasSession fork.childSessionId = false)
      (forked : after = before.createContextFork row index fork)
  | creates (row : DelegationRow) (new : NewDelegation before.delegations row)
      (created : after = { before with delegations := before.delegations ++ [row] })

theorem StoreEffect.refl (process : StoreProcess) (store : DelegationStore) :
    StoreEffect process store store :=
  .works (fun _ => False) rfl (.refl _) fun _ _ grows => grows.elim

/-- What holds of the store between any two moves. -/
structure SoundStore (store : DelegationStore) : Prop where
  distinct : (store.delegations.map DelegationRow.id).Nodup
  sessions : (store.sessions.map SessionRow.id).Nodup
  targets : ∀ row ∈ store.delegations, SoundTarget row
  bound : ∀ session ∈ store.sessions, ∀ delegationId, session.delegationId = some delegationId →
    ∃ row ∈ store.delegations, row.id = delegationId
  room : ∀ row ∈ store.delegations, Room store row.id []
  closed : ∀ row ∈ store.delegations, row.status ≠ .running → Quiet store row.id

namespace SoundStore

variable {store : DelegationStore}

theorem unique (sound : SoundStore store) {row other : DelegationRow}
    (mem : row ∈ store.delegations) (otherMember : other ∈ store.delegations)
    (same : row.id = other.id) : row = other :=
  inj_on_of_nodup_map sound.distinct mem otherMember same

theorem not_running (sound : SoundStore store) {delegationId : String}
    (running : Running store delegationId) (notRunning : NotRunning store delegationId) :
    False := by
  obtain ⟨_, mem, named, isRunning⟩ := running
  obtain ⟨_, otherMember, otherNamed, ended⟩ := notRunning
  obtain rfl := sound.unique mem otherMember (named.trans otherNamed.symm)
  exact ended isRunning

theorem quiet (sound : SoundStore store) {delegationId : String}
    (notRunning : NotRunning store delegationId) : Quiet store delegationId := by
  obtain ⟨row, mem, rfl, ended⟩ := notRunning
  exact sound.closed row mem ended

end SoundStore

section Forks

variable {store : DelegationStore} {row : DelegationRow} {index : Nat} {fork : ContextFork}
  {delegationId : String}

theorem subagents_createContextFork_other (other : delegationId ≠ row.id) :
    (store.createContextFork row index fork).subagents delegationId =
      store.subagents delegationId := by
  simp [subagents, createContextFork, filter_append, Ne.symm other]

theorem spawnedIndices_createContextFork_other (other : delegationId ≠ row.id) :
    (store.createContextFork row index fork).spawnedIndices delegationId =
      store.spawnedIndices delegationId := by
  rw [spawnedIndices, subagents_createContextFork_other other, spawnedIndices]

theorem spawnedIndices_createContextFork :
    (store.createContextFork row index fork).spawnedIndices row.id =
      store.spawnedIndices row.id ++ [some index] := by
  simp [spawnedIndices, subagents, createContextFork, filter_append]

theorem Room.createContextFork {missing : List Nat} (room : Room store row.id (index :: missing)) :
    Room (store.createContextFork row index fork) row.id missing := by
  obtain ⟨current, mem, named, nodup, bounded⟩ := room
  have places : (store.createContextFork row index fork).spawnedIndices row.id ++ missing.map some
      = store.spawnedIndices row.id ++ (index :: missing).map some := by
    rw [spawnedIndices_createContextFork, append_assoc, map_cons]
    rfl
  refine ⟨current, mem, named, ?_, ?_⟩
  · rw [places]
    exact nodup
  · rw [places]
    exact bounded

theorem Room.of_missing {missing : List Nat} (room : Room store delegationId missing) :
    Room store delegationId [] := by
  obtain ⟨current, mem, named, nodup, bounded⟩ := room
  refine ⟨current, mem, named, ?_, ?_⟩
  · rw [map_nil, append_nil]
    exact (nodup_append.mp nodup).1
  · intro place inPlaces
    rw [map_nil, append_nil] at inPlaces
    exact bounded place (mem_append_left _ inPlaces)

end Forks

namespace StoreEffect

variable {process : StoreProcess} {before after : DelegationStore} {delegationId : String}

theorem row (effect : StoreEffect process before after) {row : DelegationRow}
    (mem : row ∈ before.delegations) :
    ∃ next ∈ after.delegations, DelegationMove row next
      ∧ (.delegation row.id ∉ process.holds → next = row) := by
  cases effect with
  | works _ same | spawns _ _ _ _ _ _ _ _ same =>
    rw [same]
    exact ⟨row, mem, .refl row, fun _ => rfl⟩
  | moves _ held change delegations rows =>
    refine ⟨change row, ?_, (rows row).1, ?_⟩
    · rw [delegations]
      exact mem_map_of_mem mem
    · intro free
      apply (rows row).2
      rintro rfl
      exact free held
  | creates _ _ added =>
    rw [added]
    exact ⟨row, mem_append_left _ mem, .refl row, fun _ => rfl⟩

theorem no_spawn (sound : SoundStore before) {row : DelegationRow} {index : Nat}
    {missing : List Nat} (held : .launch row.id ∈ process.holds)
    (room : Room before row.id (index :: missing))
    (filled : .launch delegationId ∉ process.holds ∨ Full before delegationId) :
    delegationId ≠ row.id := by
  rintro rfl
  rcases filled with free | ⟨other, mem, named, full⟩
  · exact free held
  · have none := room.missing_eq_nil sound.distinct ⟨other, mem, named, rfl⟩ (by omega)
    cases none

section

variable (effect : StoreEffect process before after)
include effect

section

variable (sound : SoundStore before)
  (filled : .launch delegationId ∉ process.holds ∨ Full before delegationId)
include sound filled

theorem spawnedIndices :
    after.spawnedIndices delegationId = before.spawnedIndices delegationId := by
  cases effect with
  | works _ _ sessions
  | moves _ _ _ _ _ sessions => exact spawnedIndices_of_step sessions delegationId
  | spawns _ _ _ _ held _ room _ forked =>
    rw [forked]
    exact spawnedIndices_createContextFork_other (no_spawn sound held room filled)
  | creates _ _ created =>
    rw [created]
    rfl

theorem length_subagents :
    (after.subagents delegationId).length = (before.subagents delegationId).length := by
  have same := congrArg List.length (effect.spawnedIndices sound filled)
  rwa [DelegationStore.spawnedIndices, DelegationStore.spawnedIndices, length_map,
    length_map] at same

theorem active (free : .delegation delegationId ∉ process.holds) {session : SessionRow}
    (mem : session ∈ after.subagents delegationId) {input : MailboxRow}
    (inMailbox : input ∈ session.mailbox) (active : input.isActive) :
    ∃ prior ∈ before.subagents delegationId, ∃ earlier ∈ prior.mailbox,
      earlier.isActive ∧ earlier.id = input.id := by
  cases effect with
  | works _ _ sessions admitted =>
    refine active_of_step sessions ?_ mem inMailbox active
    intro session inSubagents grown
    obtain ⟨inSessions, bound⟩ := mem_subagents_iff.mp inSubagents
    exact free (admitted session inSessions grown _ bound).1
  | moves _ _ _ _ _ sessions =>
    exact active_of_step sessions (fun _ _ => not_false) mem inMailbox active
  | spawns _ _ _ _ held _ room _ forked =>
    rw [forked, subagents_createContextFork_other (no_spawn sound held room filled)] at mem
    exact ⟨session, mem, input, inMailbox, active, rfl⟩
  | creates _ _ created =>
    rw [created] at mem
    exact ⟨session, mem, input, inMailbox, active, rfl⟩

end

theorem running (free : .delegation delegationId ∉ process.holds)
    (running : Running before delegationId) : Running after delegationId := by
  obtain ⟨_, mem, rfl, isRunning⟩ := running
  obtain ⟨next, inAfter, -, same⟩ := effect.row mem
  obtain rfl := same free
  exact ⟨next, inAfter, rfl, isRunning⟩

theorem notRunning (sound : SoundStore before) (ended : NotRunning before delegationId) :
    NotRunning after delegationId := by
  obtain ⟨row, mem, rfl, notRunning⟩ := ended
  obtain ⟨next, inAfter, move, -⟩ := effect.row mem
  exact ⟨next, inAfter, move.id, move.notRunning (sound.targets row mem) notRunning⟩

theorem known {row : DelegationRow} (known : Known before row) : Known after row := by
  obtain ⟨_, mem, named, expected⟩ := known
  obtain ⟨next, inAfter, move, -⟩ := effect.row mem
  exact ⟨next, inAfter, move.id.trans named, move.expectedSubagents.trans expected⟩

section

variable (sound : SoundStore before)
include sound

theorem full (full : Full before delegationId) : Full after delegationId := by
  have same := effect.length_subagents sound (.inr full)
  obtain ⟨_, mem, rfl, filled⟩ := full
  obtain ⟨next, inAfter, move, -⟩ := effect.row mem
  refine ⟨next, inAfter, move.id, ?_⟩
  rw [same, filled, move.expectedSubagents]

theorem running_or_full (free : .launch delegationId ∉ process.holds)
    (runs : Running before delegationId ∨ Full before delegationId) :
    Running after delegationId ∨ Full after delegationId := by
  rcases runs with running | full
  · by_cases unlocked : .delegation delegationId ∈ process.holds
    · cases effect with
      | works _ same | spawns _ _ _ _ _ _ _ _ same =>
        refine .inl ?_
        rw [Running, same]
        exact running
      | moves moved held change delegations rows sessions ends closes =>
        by_cases same : delegationId = moved
        · subst same
          rcases ends running with claimed | full
          · exact absurd claimed free
          · exact .inr ((StoreEffect.moves delegationId held change delegations rows sessions ends
              closes).full sound full)
        · obtain ⟨row, mem, rfl, isRunning⟩ := running
          refine .inl ⟨row, ?_, rfl, isRunning⟩
          rw [delegations]
          exact mem_map.mpr ⟨row, mem, (rows row).2 same⟩
      | creates _ _ created =>
        obtain ⟨other, mem, named, isRunning⟩ := running
        refine .inl ⟨other, ?_, named, isRunning⟩
        rw [created]
        exact mem_append_left _ mem
    · exact .inl (effect.running unlocked running)
  · exact .inr (effect.full sound full)

theorem room (free : .launch delegationId ∉ process.holds) {missing : List Nat}
    (room : Room before delegationId missing) : Room after delegationId missing := by
  have same := effect.spawnedIndices sound (.inl free)
  obtain ⟨_, mem, rfl, nodup, bounded⟩ := room
  obtain ⟨next, inAfter, move, -⟩ := effect.row mem
  refine ⟨next, inAfter, move.id, ?_, ?_⟩
  · rw [same]
    exact nodup
  · rw [same, move.expectedSubagents]
    exact bounded

theorem quiet (filled : .launch delegationId ∉ process.holds ∨ Full before delegationId)
    (free : .delegation delegationId ∉ process.holds) (quiet : Quiet before delegationId) :
    Quiet after delegationId := by
  intro session mem input inMailbox
  rw [← Bool.not_eq_true]
  intro active
  obtain ⟨prior, inBefore, earlier, inPrior, wasActive, -⟩ :=
    effect.active sound filled free mem inMailbox active
  rw [quiet prior inBefore earlier inPrior] at wasActive
  cases wasActive

theorem covers (claim : .launch delegationId ∉ process.holds)
    (free : .delegation delegationId ∉ process.holds) {inputIds : List String}
    (covers : Covers before delegationId inputIds) : Covers after delegationId inputIds := by
  intro session mem input inMailbox active
  obtain ⟨prior, inBefore, earlier, inPrior, wasActive, same⟩ :=
    effect.active sound (.inl claim) free mem inMailbox active
  rw [← same]
  exact covers prior inBefore earlier inPrior wasActive

end

theorem unbound {sessionId : String} (unbound : ∃ session ∈ before.sessions,
      session.id = sessionId ∧ session.delegationId = none) :
    ∃ session ∈ after.sessions, session.id = sessionId ∧ session.delegationId = none := by
  obtain ⟨session, mem, named, none⟩ := unbound
  have moved : ∀ {grows : SessionRow → Prop}, SessionsStep grows before.sessions after.sessions →
      ∃ session ∈ after.sessions, session.id = sessionId ∧ session.delegationId = .none := by
    rintro grows ⟨change, sessions, moves⟩
    refine ⟨change session, ?_, (moves session).id.trans named,
      (moves session).delegationId.trans none⟩
    rw [sessions]
    exact mem_map_of_mem mem
  cases effect with
  | works _ _ sessions | moves _ _ _ _ _ sessions => exact moved sessions
  | spawns _ _ _ _ _ _ _ _ forked =>
    rw [forked]
    exact ⟨session, mem_append_left _ mem, named, none⟩
  | creates _ _ created =>
    rw [created]
    exact ⟨session, mem, named, none⟩

section

variable (sound : SoundStore before)
include sound

theorem distinct : (after.delegations.map DelegationRow.id).Nodup := by
  cases effect with
  | works _ same | spawns _ _ _ _ _ _ _ _ same =>
    rw [same]
    exact sound.distinct
  | moves _ _ change delegations rows =>
    have kept : before.delegations.map (DelegationRow.id ∘ change) =
        before.delegations.map DelegationRow.id :=
      map_congr_left fun row _ => (rows row).1.id
    rw [delegations, map_map, kept]
    exact sound.distinct
  | creates _ new created =>
    rw [created, map_append, nodup_append]
    refine ⟨sound.distinct, nodup_singleton _, ?_⟩
    intro id inBefore other isNew same
    obtain ⟨prior, mem, rfl⟩ := mem_map.mp inBefore
    exact new.fresh prior mem (same.trans (mem_singleton.mp isNew))

theorem sessionIds : (after.sessions.map SessionRow.id).Nodup := by
  have moved : ∀ {grows : SessionRow → Prop}, SessionsStep grows before.sessions after.sessions →
      (after.sessions.map SessionRow.id).Nodup := by
    rintro grows ⟨change, sessions, moves⟩
    have kept : before.sessions.map (SessionRow.id ∘ change) = before.sessions.map SessionRow.id :=
      map_congr_left fun session _ => (moves session).id
    rw [sessions, map_map, kept]
    exact sound.sessions
  cases effect with
  | works _ _ sessions | moves _ _ _ _ _ sessions => exact moved sessions
  | spawns _ _ _ _ _ _ _ fresh forked =>
    rw [forked, createContextFork, map_append, nodup_append]
    refine ⟨sound.sessions, nodup_singleton _, ?_⟩
    intro id inBefore other isNew same
    obtain ⟨session, mem, rfl⟩ := mem_map.mp inBefore
    rw [mem_singleton.mp isNew] at same
    rw [hasSession, any_eq_false] at fresh
    exact fresh session mem (beq_iff_eq.mpr same)
  | creates _ _ created =>
    rw [created]
    exact sound.sessions

theorem bound :
    ∀ session ∈ after.sessions, ∀ delegationId, session.delegationId = some delegationId →
      ∃ row ∈ after.delegations, row.id = delegationId := by
  have kept : ∀ session ∈ before.sessions, ∀ delegationId,
      session.delegationId = some delegationId → ∃ row ∈ after.delegations, row.id = delegationId := by
    intro session mem delegationId bound
    obtain ⟨row, inBefore, named⟩ := sound.bound session mem delegationId bound
    obtain ⟨next, inAfter, move, -⟩ := effect.row inBefore
    exact ⟨next, inAfter, move.id.trans named⟩
  have moved : ∀ {grows : SessionRow → Prop}, SessionsStep grows before.sessions after.sessions →
      ∀ session ∈ after.sessions, ∀ delegationId, session.delegationId = some delegationId →
        ∃ row ∈ after.delegations, row.id = delegationId := by
    rintro grows ⟨_, sessions, moves⟩ session mem delegationId bound
    rw [sessions] at mem
    obtain ⟨prior, inBefore, rfl⟩ := mem_map.mp mem
    rw [(moves prior).delegationId] at bound
    exact kept prior inBefore delegationId bound
  cases effect with
  | works _ _ sessions | moves _ _ _ _ _ sessions => exact moved sessions
  | spawns _ _ _ _ _ running _ _ forked =>
    intro session mem delegationId bound
    rw [forked] at mem
    rcases Library.mem_concat.mp mem with inBefore | rfl
    · exact kept session inBefore delegationId bound
    · obtain ⟨current, inBefore, named, -⟩ := running
      rw [forked]
      exact ⟨current, inBefore, named.trans (Option.some.inj bound)⟩
  | creates _ _ created =>
    intro session mem delegationId bound
    rw [created] at mem
    exact kept session mem delegationId bound

theorem rooms : ∀ row ∈ after.delegations, Room after row.id [] := by
  have kept : ∀ prior ∈ before.delegations,
      after.spawnedIndices prior.id = before.spawnedIndices prior.id → Room after prior.id [] := by
    intro prior inBefore same
    obtain ⟨_, mem, named, nodup, bounded⟩ := sound.room prior inBefore
    obtain ⟨next, inAfter, move, -⟩ := effect.row mem
    refine ⟨next, inAfter, move.id.trans named, ?_, ?_⟩
    · rw [same]
      exact nodup
    · rw [same, move.expectedSubagents]
      exact bounded
  cases effect with
  | works _ same sessions =>
    intro row mem
    rw [same] at mem
    exact kept row mem (DelegationStore.spawnedIndices_of_step sessions row.id)
  | moves _ _ _ delegations rows sessions =>
    intro row mem
    rw [delegations] at mem
    obtain ⟨prior, inBefore, rfl⟩ := mem_map.mp mem
    rw [(rows prior).1.id]
    exact kept prior inBefore (DelegationStore.spawnedIndices_of_step sessions prior.id)
  | spawns row _ _ _ _ _ room _ forked =>
    intro other mem
    rw [forked] at mem
    by_cases same : other.id = row.id
    · rw [same, forked]
      exact room.createContextFork.of_missing
    · refine kept other mem ?_
      rw [forked]
      exact spawnedIndices_createContextFork_other same
  | creates _ new created =>
    intro other mem
    rw [created] at mem
    rcases Library.mem_concat.mp mem with inBefore | rfl
    · refine kept other inBefore ?_
      rw [created]
      rfl
    · have none : after.spawnedIndices other.id = [] := by
        rw [created, DelegationStore.spawnedIndices, map_eq_nil_iff,
          DelegationStore.subagents, filter_eq_nil_iff]
        intro session inSessions bound
        obtain ⟨prior, inBefore, named⟩ := sound.bound session inSessions _ (beq_iff_eq.mp bound)
        exact new.fresh prior inBefore named
      refine ⟨other, ?_, rfl, ?_, ?_⟩
      · rw [created]
        exact mem_append_right _ (.head _)
      · rw [none]
        exact nodup_nil
      · rw [none]
        nofun

theorem closed :
    ∀ row ∈ after.delegations, row.status ≠ .running → Quiet after row.id := by
  intro row mem ended
  cases effect with
  | works _ same sessions admitted =>
    rw [same] at mem
    refine (sound.closed row mem ended).of_step sessions ?_
    intro session inSubagents grown
    obtain ⟨inSessions, bound⟩ := mem_subagents_iff.mp inSubagents
    exact sound.not_running (admitted session inSessions grown _ bound).2 ⟨row, mem, rfl, ended⟩
  | moves delegationId _ _ delegations rows sessions _ closes =>
    by_cases same : row.id = delegationId
    · rw [same]
      exact closes ⟨row, mem, same, ended⟩
    · rw [delegations] at mem
      obtain ⟨prior, inBefore, rfl⟩ := mem_map.mp mem
      rw [(rows prior).1.id] at same
      rw [(rows prior).2 same] at ended ⊢
      exact (sound.closed prior inBefore ended).of_step sessions fun _ _ => not_false
  | spawns forked _ _ _ _ running _ _ created =>
    rw [created] at mem
    have other : row.id ≠ forked.id := by
      intro same
      exact sound.not_running running ⟨row, mem, same, ended⟩
    rw [Quiet, created, subagents_createContextFork_other other]
    exact sound.closed row mem ended
  | creates _ new added =>
    rw [added] at mem ⊢
    rcases Library.mem_concat.mp mem with inBefore | rfl
    · exact sound.closed row inBefore ended
    · exact absurd new.running ended

end

theorem sound (sound : SoundStore before) :
    SoundStore after where
  distinct := effect.distinct sound
  sessions := effect.sessionIds sound
  targets := by
    intro next mem
    cases effect with
    | works _ same | spawns _ _ _ _ _ _ _ _ same =>
      rw [same] at mem
      exact sound.targets next mem
    | moves _ _ _ delegations rows =>
      rw [delegations] at mem
      obtain ⟨row, inBefore, rfl⟩ := mem_map.mp mem
      exact (sound.targets row inBefore).move (rows row).1
    | creates _ new created =>
      rw [created] at mem
      rcases Library.mem_concat.mp mem with inBefore | rfl
      · exact sound.targets next inBefore
      · exact ⟨by simp [new.target, new.running], by simp [new.target]⟩
  bound := effect.bound sound
  room := effect.rooms sound
  closed := effect.closed sound

end

end StoreEffect
end PiRelay.Store
