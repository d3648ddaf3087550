import PiRelay.AgentDaemon.Driver
import PiRelay.AgentSession.RequestContexts
import PiRelay.AgentStore.Transactions

/-! A live session and its rows hold the same transcript. The session runs ahead
of the rows by the entries its event outbox names, and a persist takes exactly
these over. What the persist attaches to them on the way, the session does not
see; so the two agree in full only where nothing is attached. -/
namespace PiRelay.Runtime

open AgentVocab AgentCore Session Store AgentSession List

@[simp] theorem appendedIds_append (first second : List SessionEvent) :
    appendedIds (first ++ second) = appendedIds first ++ appendedIds second := by
  simp [appendedIds]

theorem appendedIds_appendedEvents (leafId : Option EntryId) (items : List TranscriptItem)
    (stamps : Nat → EntryStamp) :
    appendedIds (AgentSession.appendedEvents items stamps) =
      entryIds (appendedNodes leafId items stamps) := by
  induction items generalizing leafId stamps with
  | nil => rfl
  | cons _ _ ih =>
    have shifted := ih (some (stamps 0).id) fun draw => stamps (draw + 1)
    rw [appendedEvents, mapIdx_cons, appendedNodes]
    exact congrArg ((stamps 0).id :: ·) shifted

theorem appendedIds_sessionEvents (completions : List RecordedCompletion) :
    appendedIds (completions.map RecordedCompletion.sessionEvent) = [] := by
  rw [appendedIds, filterMap_map, filterMap_eq_nil_iff]
  intro completion _
  cases completion <;> rfl

variable (session : AgentSession)

theorem invalidateSessionWork_appendedIds :
    appendedIds session.invalidateSessionWork.eventOutbox = appendedIds session.eventOutbox := by
  rw [invalidateSessionWork, queueSessionAction]
  split
  · rw [appendedIds_append]
    exact append_nil _
  · rfl

theorem drainCoreAction_appendedIds (action : AgentAction) :
    appendedIds (session.drainCoreAction action).eventOutbox = appendedIds session.eventOutbox := by
  cases action with
  | cancelTurn => exact invalidateSessionWork_appendedIds session
  | requestModel | requestTool =>
    rw [drainCoreAction, queueCoreAction, queueSessionAction, appendedIds_append]
    exact append_nil _

theorem foldl_drainCoreAction_appendedIds (actions : List AgentAction) (session : AgentSession) :
    appendedIds (actions.foldl AgentSession.drainCoreAction session).eventOutbox =
      appendedIds session.eventOutbox := by
  induction actions generalizing session with
  | nil => rfl
  | cons _ _ ih => rw [foldl_cons, ih, drainCoreAction_appendedIds]

def drivenNodes (session : AgentSession) (stamps : Nat → EntryStamp) : List TranscriptStorageNode :=
  appendedNodes session.transcriptStore.activeLeafId session.core.drive.transcriptItemOutbox stamps

theorem drive_nodes (stamps : Nat → EntryStamp) :
    (session.drive stamps).transcriptStore.nodes =
      session.transcriptStore.nodes ++ drivenNodes session stamps := by
  rw [drive_transcriptStore, TranscriptStore.appendTranscriptItems_nodes, drivenNodes]

theorem drive_appendedIds (stamps : Nat → EntryStamp) :
    appendedIds (session.drive stamps).eventOutbox =
      appendedIds session.eventOutbox ++ entryIds (drivenNodes session stamps) := by
  rw [drive, drainCoreActions, foldl_drainCoreAction_appendedIds,
    drivenNodes, ← appendedIds_appendedEvents]
  simp [drainCoreTranscriptItems, AgentCoreLoop.drainTranscriptItems,
    OutstandingActions.emitEventsAfterCoreAccepts, appendedIds_sessionEvents]

theorem enqueueAccepted_appendedIds (input : AgentInput) :
    appendedIds (session.enqueueAccepted input).eventOutbox = appendedIds session.eventOutbox := by
  have enqueues := session.enqueueAccepted_enqueues input
  generalize session.enqueueAccepted input = enqueued at enqueues
  cases enqueues with
  | interrupt => exact invalidateSessionWork_appendedIds session
  | _ => rfl

def view (withReplay : Bool) (entry : TranscriptStorageNode) : TranscriptStorageNode :=
  if withReplay then entry else { entry with providerReplay := [] }

@[simp] theorem view_id (withReplay : Bool) (entry : TranscriptStorageNode) :
    (view withReplay entry).id = entry.id := by
  cases withReplay <;> rfl

@[simp] theorem view_item (withReplay : Bool) (entry : TranscriptStorageNode) :
    (view withReplay entry).item = entry.item := by
  cases withReplay <;> rfl

theorem map_view_true (entries : List TranscriptStorageNode) : entries.map (view true) = entries :=
  List.map_id entries

variable {withReplay : Bool}

theorem entryIds_of_view {first second : List TranscriptStorageNode}
    (same : first.map (view withReplay) = second.map (view withReplay)) :
    entryIds first = entryIds second := by
  have ids := congrArg (List.map TranscriptStorageNode.id) same
  simpa [entryIds, Function.comp_def] using ids

theorem items_of_view {first second : List TranscriptStorageNode}
    (same : first.map (view withReplay) = second.map (view withReplay)) :
    first.map (·.item) = second.map (·.item) := by
  have items := congrArg (List.map TranscriptStorageNode.item) same
  simpa [Function.comp_def] using items

theorem extendLastAssistant_view {providerReplay : List ProviderReplayItem}
    {entries extended : List TranscriptStorageNode}
    (extends_ : extendLastAssistant providerReplay entries = some extended) :
    extended.map (view false) = entries.map (view false) := by
  induction entries generalizing extended with
  | nil => cases extends_
  | cons _ _ ih =>
    rw [extendLastAssistant] at extends_
    split at extends_
    · rename_i later hLater
      cases extends_
      rw [map_cons, map_cons, ih hLater]
    · split at extends_
      · cases extends_
        rfl
      · cases extends_

theorem attachProviderReplay_view {providerReplay : List ProviderReplayItem}
    {entries attached : List TranscriptStorageNode} (unseen : withReplay → providerReplay = [])
    (attaches : attachProviderReplay entries providerReplay = some attached) :
    attached.map (view withReplay) = entries.map (view withReplay) := by
  cases withReplay with
  | true =>
    rw [unseen rfl] at attaches
    cases attaches
    rfl
  | false =>
    rw [attachProviderReplay] at attaches
    split at attaches
    · cases attaches
      rfl
    · exact extendLastAssistant_view attaches

/-- The session holds the stored entries and, after them, the unsaved ones that
its events name. -/
structure Mirror (withReplay : Bool) (entries unsaved : List TranscriptStorageNode)
    (session : AgentSession) : Prop where
  nodup : (entryIds session.transcriptStore.nodes).Nodup
  nodes : ∃ saved, saved.map (view withReplay) = entries.map (view withReplay) ∧
    session.transcriptStore.nodes = saved ++ unsaved
  events : appendedIds session.eventOutbox = entryIds unsaved

namespace Mirror

variable {withReplay : Bool} {entries unsaved : List TranscriptStorageNode}
  {session : AgentSession}

section

variable (mirror : Mirror withReplay entries unsaved session)
include mirror

theorem enqueueAccepted (input : AgentInput) :
    Mirror withReplay entries unsaved (session.enqueueAccepted input) where
  nodup := by
    rw [enqueueAccepted_transcriptStore]
    exact mirror.nodup
  nodes := by
    rw [enqueueAccepted_transcriptStore]
    exact mirror.nodes
  events := (enqueueAccepted_appendedIds session input).trans mirror.events

theorem drive {stamps : Nat → EntryStamp} (fresh : Fresh stamps session.transcriptStore.nodes) :
    Mirror withReplay entries (unsaved ++ drivenNodes session stamps) (session.drive stamps) where
  nodup := by
    rw [drive_nodes]
    exact fresh.append_nodup mirror.nodup _ _
  nodes := by
    obtain ⟨saved, same, hNodes⟩ := mirror.nodes
    exact ⟨saved, same, by rw [drive_nodes, hNodes, append_assoc]⟩
  events := by rw [drive_appendedIds, mirror.events, entryIds_append]

theorem appendWithEvent (item : TranscriptItem) (providerReplay : List ProviderReplayItem)
    {stamp : EntryStamp} (unused : stamp.id ∉ entryIds session.transcriptStore.nodes) :
    ∃ added, Mirror withReplay entries (unsaved ++ [added])
        (session.appendWithEvent item providerReplay stamp) ∧
      added.id = stamp.id ∧
      (session.appendWithEvent item providerReplay stamp).transcriptStore.nodes =
        session.transcriptStore.nodes ++ [added] := by
  refine ⟨_, ⟨entryIds_snoc_nodup mirror.nodup ?_, ?_, ?_⟩, ?_, rfl⟩
  · exact unused
  · obtain ⟨saved, same, hNodes⟩ := mirror.nodes
    refine ⟨saved, same, ?_⟩
    rw [← append_assoc, ← hNodes]
    rfl
  · rw [AgentSession.appendWithEvent, appendedIds_append, mirror.events, entryIds_append]
    rfl
  · rfl

theorem collected :
    (appendedIds session.eventOutbox).filterMap session.transcriptStore.getEntry = unsaved := by
  rw [mirror.events]
  apply TranscriptStore.filterMap_getEntry mirror.nodup
  obtain ⟨_, _, hNodes⟩ := mirror.nodes
  intro node mem
  rw [hNodes]
  exact mem_append_right _ mem

theorem entryIds_eq :
    entryIds session.transcriptStore.nodes = entryIds entries ++ entryIds unsaved := by
  obtain ⟨_, same, hNodes⟩ := mirror.nodes
  rw [hNodes, entryIds_append, entryIds_of_view same]

end

end Mirror

structure Synced (withReplay : Bool) (db : Database) (runtime : RuntimeSession) : Prop where
  nodup : (entryIds db.entries).Nodup
  nodes : runtime.session.transcriptStore.nodes.map (view withReplay) =
    db.entries.map (view withReplay)
  leaf : runtime.session.transcriptStore.activeLeafId = db.activeLeafId
  persisted : runtime.persistedActiveLeafId = db.activeLeafId
  actions : runtime.session.actionOutbox = []
  events : runtime.session.eventOutbox = []

namespace Synced

variable {withReplay : Bool} {db after : Database} {runtime : RuntimeSession}

section

variable (synced : Synced withReplay db runtime)
include synced

theorem mirror :
    Mirror withReplay db.entries [] runtime.session where
  nodup := by
    rw [entryIds_of_view synced.nodes]
    exact synced.nodup
  nodes := ⟨runtime.session.transcriptStore.nodes, synced.nodes, by simp⟩
  events := by
    rw [synced.events]
    rfl

theorem of_rows (hEntries : after.entries = db.entries)
    (hLeaf : after.activeLeafId = db.activeLeafId) : Synced withReplay after runtime where
  nodup := hEntries ▸ synced.nodup
  nodes := hEntries ▸ synced.nodes
  leaf := hLeaf ▸ synced.leaf
  persisted := hLeaf ▸ synced.persisted
  actions := synced.actions
  events := synced.events

theorem fresh {stamps : Nat → EntryStamp} (fresh : Fresh stamps db.entries) :
    Fresh stamps runtime.session.transcriptStore.nodes where
  distinct := fresh.distinct
  unused := by
    rw [entryIds_of_view synced.nodes]
    exact fresh.unused

theorem isTurnBoundary :
    db.activeLeafIsTurnBoundary = runtime.session.transcriptStore.isTurnBoundary := by
  have found : ∀ (store : TranscriptStore) (id : EntryId), (store.getEntry id).map (·.item) =
        ((store.nodes.map (view withReplay)).reverse.find? (·.id == id)).map (·.item) := by
    intro store id
    rw [← map_reverse, find?_map, Option.map_map, TranscriptStore.getEntry]
    simp [Function.comp_def]
  have same : ∀ id, (db.transcriptStore.getEntry id).map (·.item) =
      (runtime.session.transcriptStore.getEntry id).map (·.item) := by
    intro id
    rw [found, found, synced.nodes]
    rfl
  have byItem : ∀ store : TranscriptStore, store.isTurnBoundary =
      store.activeLeafId.all fun id =>
        ((store.getEntry id).map (·.item)).any TranscriptItem.isTurnBoundary := by
    intro store
    rw [TranscriptStore.isTurnBoundary, TranscriptStore.isTurnBoundaryAt.eq_def]
    cases store.activeLeafId with
    | none => rfl
    | some id => cases hEntry : store.getEntry id <;> simp [hEntry]
  have hLeaf : db.transcriptStore.activeLeafId = runtime.session.transcriptStore.activeLeafId :=
    synced.leaf.symm
  rw [Database.activeLeafIsTurnBoundary, byItem, byItem, hLeaf]
  cases runtime.session.transcriptStore.activeLeafId with
  | none => rfl
  | some => simp only [Option.all_some, same]

end

end Synced

/-- The session once it is driven and its outputs are drained. -/
def driven (runtime : RuntimeSession) (stamps : Nat → EntryStamp) : RuntimeSession :=
  { runtime with
    session :=
      { runtime.session.drive stamps with
        eventOutbox := []
        actionOutbox := [] } }

/-- Everything a persist can come to. -/
inductive PersistsTo (db : Database) (runtime : RuntimeSession)
    (actionUpdate : Option ActionUpdate) (consumedInput : Option RowId)
    (providerReplay : List ProviderReplayItem) (stamps : Nat → EntryStamp)
    (commit : CommitOutcome) : PersistResult → Prop where
  | invalidProviderOutput
      (unattached : attachProviderReplay (collectRuntimeOutputs runtime stamps).entries
        providerReplay = none) :
      PersistsTo db runtime actionUpdate consumedInput providerReplay stamps commit
        (.invalidProviderOutput (driven runtime stamps))
  | panicked (hCommit : commit = .panicked) :
      PersistsTo db runtime actionUpdate consumedInput providerReplay stamps commit
        (.panicked (driven runtime stamps))
  | failed :
      PersistsTo db runtime actionUpdate consumedInput providerReplay stamps commit .failed
  | nothing {entries : List TranscriptStorageNode}
      (attached : attachProviderReplay (collectRuntimeOutputs runtime stamps).entries
        providerReplay = some entries)
      (noObligations : (outputBatch (collectRuntimeOutputs runtime stamps) entries actionUpdate
        consumedInput).hasDurableObligations = false) :
      PersistsTo db runtime actionUpdate consumedInput providerReplay stamps commit
        (.persisted db (driven runtime stamps) [])
  | committed {entries : List TranscriptStorageNode} {after : Database}
      {dispatches : List PersistedAction}
      (attached : attachProviderReplay (collectRuntimeOutputs runtime stamps).entries
        providerReplay = some entries)
      (persists : Database.Persists db
        (outputBatch (collectRuntimeOutputs runtime stamps) entries actionUpdate consumedInput)
        after dispatches) :
      PersistsTo db runtime actionUpdate consumedInput providerReplay stamps commit
        (.persisted after
          { driven runtime stamps with
            persistedActiveLeafId := (runtime.session.drive stamps).transcriptStore.activeLeafId }
          dispatches)

theorem persistActiveOutputs_persistsTo (db : Database) (runtime : RuntimeSession)
    (actionUpdate : Option ActionUpdate) (consumedInput : Option RowId)
    (providerReplay : List ProviderReplayItem) (stamps : Nat → EntryStamp)
    (commit : CommitOutcome) :
    PersistsTo db runtime actionUpdate consumedInput providerReplay stamps commit
      (persistActiveOutputs db runtime actionUpdate consumedInput providerReplay stamps commit) := by
  rw [persistActiveOutputs]
  simp only
  split
  · rename_i unattached
    exact .invalidProviderOutput unattached
  · rename_i entries attached
    split
    · rename_i noObligations
      exact .nothing attached (by simpa using noObligations)
    · cases hCommit : commit with
      | panicked => exact .panicked rfl
      | refused => exact .failed
      | committed =>
        simp only
        split
        · exact .failed
        · rename_i after dispatches persists
          exact .committed attached (Database.persistOutputs_persists persists)

section Persisting

variable {withReplay : Bool} {db after : Database} {unsaved : List TranscriptStorageNode}
  {runtime persisted : RuntimeSession} {actionUpdate : Option ActionUpdate}
  {consumedInput : Option RowId} {providerReplay : List ProviderReplayItem}
  {stamps : Nat → EntryStamp} {commit : CommitOutcome} {dispatches : List PersistedAction}

theorem collectRuntimeOutputs_entries (mirror : Mirror withReplay db.entries unsaved runtime.session)
    (fresh : Fresh stamps runtime.session.transcriptStore.nodes) :
    (collectRuntimeOutputs runtime stamps).entries =
      unsaved ++ drivenNodes runtime.session stamps :=
  (mirror.drive fresh).collected

/-- After a batch the rows mirror the runtime it was persisted from. -/
theorem PersistsTo.synced
    (persistsTo : PersistsTo db runtime actionUpdate consumedInput providerReplay stamps commit
      (.persisted after persisted dispatches))
    (mirror : Mirror withReplay db.entries unsaved runtime.session)
    (hPersisted : runtime.persistedActiveLeafId = db.activeLeafId)
    (fresh : Fresh stamps runtime.session.transcriptStore.nodes)
    (unseen : withReplay → providerReplay = []) :
    Synced withReplay after persisted ∧
      after.entries.map (·.item) =
        db.entries.map (·.item) ++ (unsaved ++ drivenNodes runtime.session stamps).map (·.item) := by
  have drives := mirror.drive fresh
  obtain ⟨_, same, hNodes⟩ := drives.nodes
  have hIds := drives.entryIds_eq
  cases persistsTo with
  | nothing attached noObligations =>
    have view := attachProviderReplay_view unseen attached
    rw [collectRuntimeOutputs_entries mirror fresh] at view
    simp only [OutputBatch.hasDurableObligations, outputBatch, Bool.or_eq_false_iff,
      Bool.not_eq_false', List.isEmpty_iff] at noObligations
    obtain ⟨⟨⟨⟨⟨noEntries, unchanged⟩, _⟩, _⟩, _⟩, _⟩ := noObligations
    have noneUnsaved : unsaved ++ drivenNodes runtime.session stamps = [] := by
      rw [noEntries] at view
      simpa using view.symm
    have hLeaf := eq_of_beq unchanged
    rw [noneUnsaved] at hNodes hIds ⊢
    rw [append_nil] at hNodes
    refine ⟨⟨?_, ?_, hLeaf.symm.trans hPersisted, hPersisted, rfl, rfl⟩, by simp⟩
    · have nodup := drives.nodup
      rw [hIds] at nodup
      simpa [entryIds] using nodup
    · show (runtime.session.drive stamps).transcriptStore.nodes.map _ = _
      rw [hNodes, same]
  | committed attached persists =>
    rename_i entries
    have view := attachProviderReplay_view unseen attached
    rw [collectRuntimeOutputs_entries mirror fresh] at view
    have nodup : (entryIds (db.entries ++ entries)).Nodup := by
      rw [entryIds_append, entryIds_of_view view, ← hIds]
      exact drives.nodup
    have hEntries : after.entries = db.entries ++ entries := by
      rw [persists.entries]
      exact congrArg Database.entries (Database.insertEntries_of_nodup nodup)
    refine ⟨⟨hEntries ▸ nodup, ?_, persists.activeLeafId.symm, persists.activeLeafId.symm, rfl,
      rfl⟩, ?_⟩
    · show (runtime.session.drive stamps).transcriptStore.nodes.map _ = _
      rw [hNodes, hEntries, map_append, same, ← view, ← map_append]
    · rw [hEntries, map_append, items_of_view view]

end Persisting

end PiRelay.Runtime
