import PiRelay.AgentDaemon.Recovery

/-! What the parts of a step leave alone. Ending a section touches neither rows
nor runtime; dispatching touches only actions and tasks. -/
namespace PiRelay.Runtime

open AgentVocab AgentCore Session Store List

namespace Daemon

variable (daemon : Daemon) (owner : Owner)

@[simp] theorem finishSection_db : (daemon.finishSection owner).db = daemon.db := by
  cases owner <;> rfl

@[simp] theorem finishSection_active : (daemon.finishSection owner).active = daemon.active := by
  cases owner <;> rfl

@[simp] theorem finishSection_driver : (daemon.finishSection owner).driver = none := by
  cases owner <;> rfl

@[simp] theorem failSection_db : (daemon.failSection owner).db = daemon.db := by
  cases owner <;> rfl

@[simp] theorem failSection_active : (daemon.failSection owner).active = daemon.active := by
  cases owner <;> rfl

@[simp] theorem failSection_driver : (daemon.failSection owner).driver = none := by
  cases owner <;> rfl

/-- Only actions and registered tasks differ. -/
structure SameSession (before after : Daemon) : Prop where
  entries : after.db.entries = before.db.entries
  activeLeafId : after.db.activeLeafId = before.db.activeLeafId
  queuedInputs : after.db.queuedInputs = before.db.queuedInputs
  active : after.active = before.active
  erring : after.erring = before.erring

namespace SameSession

variable {before middle after : Daemon}

theorem refl (daemon : Daemon) : SameSession daemon daemon := ⟨rfl, rfl, rfl, rfl, rfl⟩

theorem trans (first : SameSession before middle) (second : SameSession middle after) :
    SameSession before after where
  entries := second.entries.trans first.entries
  activeLeafId := second.activeLeafId.trans first.activeLeafId
  queuedInputs := second.queuedInputs.trans first.queuedInputs
  active := second.active.trans first.active
  erring := second.erring.trans first.erring

theorem transcriptStore (same : SameSession before after) :
    after.db.transcriptStore = before.db.transcriptStore := by
  rw [Database.transcriptStore, same.entries, same.activeLeafId, Database.transcriptStore]

end SameSession

variable {daemon}
variable {row : RowId}

theorem blockAndSpawnAutoCompaction_some {blocked : Daemon} {expected : ActionStatus}
    (blocks : daemon.blockAndSpawnAutoCompaction row expected = some blocked) :
    ∃ db job, daemon.db.blockModelActionForCompaction row expected = some (db, job) ∧
      blocked =
        { daemon with db, compactions := daemon.compactions ++ [{ job, phase := .running }] } := by
  rw [blockAndSpawnAutoCompaction] at blocks
  split at blocks
  · cases blocks
  · rename_i db job hBlock
    exact ⟨db, job, hBlock, (Option.some.inj blocks).symm⟩

theorem blockAndSpawnAutoCompaction_same {blocked : Daemon} {expected : ActionStatus}
    (blocks : daemon.blockAndSpawnAutoCompaction row expected = some blocked) :
    SameSession daemon blocked := by
  obtain ⟨_, _, hBlock, rfl⟩ := blockAndSpawnAutoCompaction_some blocks
  rw [Database.blockModelActionForCompaction] at hBlock
  split at hBlock
  · cases hBlock
  · split at hBlock
    · cases hBlock
      exact ⟨rfl, rfl, rfl, rfl, rfl⟩
    · cases hBlock

end Daemon

theorem enqueueInput_queued (session : AgentSession) (queued : QueuedInput) :
    session.enqueueInput (agentInputFromQueuedPriority queued.priority queued.content) =
      .ok (session.enqueueAccepted
        (agentInputFromQueuedPriority queued.priority queued.content)) := by
  obtain ⟨priority, content, -⟩ := queued
  cases content with
  | userMessage => cases priority <;> rfl
  | daemonToolObservation => rfl

/-- The points before a load: a runtime is kept, or the leaf is a boundary. -/
def Point.awaitsLoad : Point → Bool
  | .driveIfQueued | .interrupt | .load | .cancelWork _ | .dispatch _ .drive => true
  | _ => false

def Point.dispatches : Point → List PersistedAction
  | .cancelWork dispatches | .dispatch dispatches _ => dispatches
  | _ => []

def Daemon.Settled (daemon : Daemon) : Prop :=
  daemon.active.isSome = true ∨ daemon.db.activeLeafIsTurnBoundary = true

theorem Daemon.SameSession.settled {before after : Daemon} (same : SameSession before after)
    (settled : before.Settled) : after.Settled := by
  rw [Daemon.Settled, same.active, Database.activeLeafIsTurnBoundary, same.transcriptStore]
  exact settled

/-- The ids a step draws are new. -/
structure Choice.Fresh (choice : Choice) (db : Database) : Prop where
  early : Session.Fresh choice.early db.entries
  stamps : Session.Fresh choice.stamps db.entries
  apart : ∀ draw other, (choice.early draw).id ≠ (choice.stamps other).id

/-- The session is ahead of the rows at most by what its events name, and the ids
the persist draws are new to it. -/
structure Persistable (withReplay : Bool) (entries : List TranscriptStorageNode) (choice : Choice)
    (session : AgentSession) : Prop where
  mirror : ∃ unsaved, Mirror withReplay entries unsaved session
  fresh : Session.Fresh choice.stamps session.transcriptStore.nodes

theorem Synced.persistable {withReplay : Bool} {db : Database} {runtime : RuntimeSession}
    {choice : Choice} (synced : Synced withReplay db runtime) (fresh : choice.Fresh db) :
    Persistable withReplay db.entries choice runtime.session where
  mirror := ⟨[], synced.mirror⟩
  fresh := synced.fresh fresh.stamps

namespace Persistable

variable {withReplay : Bool} {entries : List TranscriptStorageNode} {choice : Choice}
  {session : AgentSession}

section

variable (persistable : Persistable withReplay entries choice session)
include persistable

theorem enqueueAccepted (input : AgentInput) :
    Persistable withReplay entries choice (session.enqueueAccepted input) where
  mirror := by
    obtain ⟨unsaved, mirror⟩ := persistable.mirror
    exact ⟨unsaved, mirror.enqueueAccepted input⟩
  fresh := by
    rw [AgentSession.enqueueAccepted_transcriptStore]
    exact persistable.fresh

theorem drive (early : Session.Fresh choice.early session.transcriptStore.nodes)
    (apart : ∀ draw other, (choice.early draw).id ≠ (choice.stamps other).id) :
    Persistable withReplay entries choice (session.drive choice.early) where
  mirror := by
    obtain ⟨_, mirror⟩ := persistable.mirror
    exact ⟨_, mirror.drive early⟩
  fresh := by
    rw [drive_nodes]
    exact persistable.fresh.append_other apart _ _

theorem appendWithEvent (apart : ∀ draw other, (choice.early draw).id ≠ (choice.stamps other).id)
    (item : TranscriptItem) (providerReplay : List ProviderReplayItem) {draw : Nat}
    (unused : (choice.early draw).id ∉ entryIds session.transcriptStore.nodes) :
    Persistable withReplay entries choice
      (session.appendWithEvent item providerReplay (choice.early draw)) := by
  obtain ⟨_, mirror⟩ := persistable.mirror
  obtain ⟨_, appended, hId, hNodes⟩ := mirror.appendWithEvent item providerReplay unused
  refine ⟨⟨_, appended⟩, ?_⟩
  rw [hNodes]
  refine ⟨persistable.fresh.distinct, ?_⟩
  intro other taken
  rw [entryIds_append] at taken
  rcases Library.mem_concat.mp taken with old | new
  · exact persistable.fresh.unused other old
  · exact apart draw other (new.trans hId).symm

theorem enqueueSessionInput (early : Session.Fresh choice.early session.transcriptStore.nodes)
    (apart : ∀ draw other, (choice.early draw).id ≠ (choice.stamps other).id) (input : SessionInput) :
    Persistable withReplay entries choice (session.enqueueSessionInput input choice.early) := by
  cases input with
  | modelCompleted => exact persistable.enqueueAccepted _
  | modelMaxOutputTokens actionId turnId assistant providerReplay =>
    rw [AgentSession.enqueueSessionInput, AgentSession.acceptModelMaxOutputTokens]
    split
    · exact persistable
    · rename_i outstandingActions _
      have dropped : Persistable withReplay entries choice
          (({ session with outstandingActions }).dropCompletedActionFromOutbox
            (.modelCompleted actionId turnId assistant)) := by
        obtain ⟨unsaved, mirror⟩ := persistable.mirror
        exact ⟨⟨unsaved, mirror.nodup, mirror.nodes, mirror.events⟩, persistable.fresh⟩
      have first := dropped.appendWithEvent apart (.assistantMessage assistant) providerReplay
        (early.unused 0)
      have second := first.appendWithEvent apart (.turnFinished turnId .crashed) []
        ((early.shift _ (by rfl)).unused 0)
      obtain ⟨unsaved, mirror⟩ := second.mirror
      refine ⟨⟨unsaved, mirror.nodup, mirror.nodes, ?_⟩, second.fresh⟩
      rw [appendedIds_append, mirror.events]
      exact append_nil _

end

end Persistable

/-- The step draws new ids and is not cut short: no task dies between driving the
session and the end of its transaction, the queue is read when a batch is done,
and the runtime is not taken from a section in progress. -/
def Daemon.Uncut (daemon : Daemon) : Label → Prop
  | .advance choice => choice.Fresh daemon.db ∧ choice.commit ≠ .panicked ∧ choice.steerRead = true
  | .compactionDropsRuntime _ => daemon.driver = none
  | _ => True

/-- The ids of one lane. The lane of an id can be read off it. -/
def supply (lane draw : Nat) : EntryStamp where
  id := String.ofList (List.replicate lane 'a' ++ 'b' :: List.replicate draw 'a')
  timestampMs := 0

def laneOf (id : EntryId) : Nat := id.toList.idxOf 'b'

theorem laneOf_supply (lane draw : Nat) : laneOf (supply lane draw).id = lane := by
  simp [laneOf, supply, idxOf_append]

theorem supply_fresh {lane : Nat} {nodes : List TranscriptStorageNode}
    (below : (entryIds nodes).all (laneOf · < lane)) : Session.Fresh (supply lane) nodes where
  distinct := by
    intro draw other same
    have sameLength := congrArg (fun id : String => id.toList.length) same
    simp only [supply, String.toList_ofList, length_append, length_cons,
      length_replicate] at sameLength
    omega
  unused := by
    intro draw taken
    have lower := all_eq_true.mp below _ taken
    rw [laneOf_supply] at lower
    simp at lower

/-- One entry of a written-out run: an outside label, or an advance that draws its
ids from two lanes of its own. -/
inductive ScriptEntry where
  | act (label : Label)
  | go (lane : Nat) (queued : Option RowId) (outcomes : List DispatchOutcome)

def ScriptEntry.label : ScriptEntry → Label
  | .act label => label
  | .go lane queued outcomes =>
    .advance { early := supply (2 * lane), stamps := supply (2 * lane + 1), queued, outcomes }

/-- The lanes of the entry are above those in use. -/
def ScriptEntry.uncut (daemon : Daemon) : ScriptEntry → Bool
  | .act (.advance _) | .act (.compactionDropsRuntime _) => false
  | .act _ => true
  | .go lane _ _ => (entryIds daemon.db.entries).all (laneOf · < 2 * lane)

theorem ScriptEntry.uncut_sound {daemon : Daemon} {entry : ScriptEntry}
    (checked : entry.uncut daemon) : daemon.Uncut entry.label := by
  cases entry with
  | act label =>
    cases label with
    | advance | compactionDropsRuntime => cases checked
    | _ => trivial
  | go =>
    refine ⟨⟨supply_fresh checked, supply_fresh ?_, ?_⟩, by simp, rfl⟩
    · rw [all_eq_true]
      intro id mem
      have lower := all_eq_true.mp checked id mem
      rw [decide_eq_true_eq] at lower ⊢
      omega
    · intro draw other same
      have lanes := congrArg laneOf same
      rw [laneOf_supply, laneOf_supply] at lanes
      omega

/-- A prompt is queued and driven to its model request, and the request to the
point where its runner starts. -/
def promptScript : List ScriptEntry :=
  [.act (.enqueueInput .followUp (.userMessage (.text "go"))), .act (.request .driveIfQueued),
    .go 1 none [], .go 1 none [], .go 1 none [], .go 1 none [], .go 1 none [], .go 1 none [],
    .go 1 (some 0) [], .go 2 none [.claimed]]

end PiRelay.Runtime
