import PiRelay.AgentDaemon.Persistence
import PiRelay.AgentSession.TurnClosing

/-! Recovery and loading. Recovery leaves a session without a runtime at a turn
boundary, and a session is loaded only there; so a loaded core is idle and its
store is the stored transcript. -/
namespace PiRelay.Runtime

open AgentVocab AgentCore Session Store TranscriptStore List

theorem modelContext_isTurnBoundary {store : TranscriptStore} (boundary : store.isTurnBoundary) :
    ModelContext.isTurnBoundaryItems store.modelContext.items := by
  rw [isTurnBoundary] at boundary
  rw [modelContext, pathEntries]
  cases hLeaf : store.activeLeafId with
  | none => cases store.nodes.length <;> rfl
  | some leafId =>
    rw [hLeaf, isTurnBoundaryAt] at boundary
    cases found : store.getEntry leafId with
    | none => simp [found] at boundary
    | some =>
      have mem := (getEntry_eq_some found).1
      obtain ⟨fuel, hFuel⟩ : ∃ fuel, store.nodes.length = fuel + 1 :=
        Nat.exists_eq_succ_of_ne_zero (length_pos_of_mem mem).ne'
      rw [found] at boundary
      rw [hFuel, walkToRoot]
      simp [found, ModelContext.fromEntries, ModelContext.isTurnBoundaryItems,
        TranscriptStorageNode.contextEntry, boundary]

theorem resumedCore_of_boundary {store : TranscriptStore} (boundary : store.isTurnBoundary) :
    AgentSession.resumedCore store.modelContext =
      .resumeAt store.modelContext.lastTurnId ActionId.first := by
  have closed := ModelContext.openTurnStart_of_boundary (modelContext_isTurnBoundary boundary)
  simp [AgentSession.resumedCore, ModelContext.openTurnReadyToContinue,
    ModelContext.openTurnReadyToContinueItems, closed]

def sessionAt (store : TranscriptStore) : AgentSession :=
  { AgentSession.new with
    core := .resumeAt store.modelContext.lastTurnId ActionId.first
    transcriptStore := store }

variable {db : Database} {stamps : Nat → EntryStamp} {daemon : Daemon}

theorem fromStoredSession_ok {session : AgentSession}
    (loaded : AgentSession.fromStoredSession db.storedSession stamps = .ok session) :
    ∃ items, session = sessionAt (db.transcriptStore.appendTranscriptItems items stamps) ∧
      (db.transcriptStore.appendTranscriptItems items stamps).isTurnBoundary ∧
      (db.activeLeafIsTurnBoundary → items = []) := by
  rw [AgentSession.fromStoredSession] at loaded
  split at loaded
  · cases loaded
  · rename_i store hStore
    have same : store = db.transcriptStore := by
      rw [fromStorageEntries] at hStore
      split at hStore
      · cases hStore
      · split at hStore
        · cases hStore
        · split at hStore
          · cases hStore
          · exact (Except.ok.inj hStore).symm
    subst same
    rw [AgentSession.fromTranscriptStore] at loaded
    split at loaded
    · cases loaded
    · rename_i closed hClosed
      cases loaded
      have grown : ∃ items, closed = db.transcriptStore.appendTranscriptItems items stamps ∧
          closed.isTurnBoundary ∧ (db.activeLeafIsTurnBoundary → items = []) := by
        simp only [AgentSession.closeTranscriptStoreOpenTurn,
          AgentSession.closeTranscriptStoreOpenTurnTo] at hClosed
        split at hClosed
        · rename_i boundary
          cases hClosed
          exact ⟨[], rfl, boundary, fun _ => rfl⟩
        · rename_i isOpen
          split at hClosed
          · cases hClosed
          · split at hClosed
            · rename_i boundary
              cases hClosed
              exact ⟨_, rfl, boundary, fun atBoundary => absurd atBoundary isOpen⟩
            · cases hClosed
      obtain ⟨items, rfl, boundary, noItems⟩ := grown
      exact ⟨items, by rw [resumedCore_of_boundary boundary]; rfl, boundary, noItems⟩

/-- Everything recovery can do: nothing while a runtime is kept; at a boundary
only actions become stale; elsewhere the turn is closed. -/
inductive Recovers (daemon : Daemon) (stamps : Nat → EntryStamp) : Daemon → Prop where
  | live (kept : daemon.active.isSome = true) : Recovers daemon stamps daemon
  | boundary {actions : List ActionRow} (noRuntime : daemon.active = none)
      (boundary : daemon.db.activeLeafIsTurnBoundary = true)
      (targets : actions.map ActionRow.target = daemon.db.targets) :
      Recovers daemon stamps { daemon with db := { daemon.db with actions } }
  | closed {items : List TranscriptItem} {after : Database} (noRuntime : daemon.active = none)
      (grown : after.transcriptStore = daemon.db.transcriptStore.appendTranscriptItems items stamps)
      (boundary : after.activeLeafIsTurnBoundary = true)
      (targets : after.targets = daemon.db.targets)
      (queuedInputs : after.queuedInputs = daemon.db.queuedInputs) :
      Recovers daemon stamps { daemon with db := after }

theorem recoverSession_grown (nodup : (entryIds db.entries).Nodup) (fresh : Fresh stamps db.entries)
    (items : List TranscriptItem) :
    (db.recoverSession
        (((sessionAt (db.transcriptStore.appendTranscriptItems items stamps)).toStoredSession
          "").entries.drop db.entries.length)
        (db.transcriptStore.appendTranscriptItems items stamps).activeLeafId).transcriptStore =
      db.transcriptStore.appendTranscriptItems items stamps := by
  have hNodes := db.transcriptStore.appendTranscriptItems_nodes items stamps
  have grownNodup := fresh.append_nodup nodup db.activeLeafId items
  have storeNodup : (entryIds (db.transcriptStore.appendTranscriptItems items stamps).nodes).Nodup :=
    by rw [hNodes]; exact grownNodup
  have hEntries := entries_eq_nodes storeNodup
  have added : ((sessionAt (db.transcriptStore.appendTranscriptItems items stamps)).toStoredSession
      "").entries.drop db.entries.length = appendedNodes db.activeLeafId items stamps := by
    show List.drop _ (db.transcriptStore.appendTranscriptItems items stamps).entries = _
    rw [hEntries, hNodes]
    exact drop_left
  have inserted := Database.insertEntries_of_nodup grownNodup
  rw [added, Database.recoverSession, inserted]
  show mk (db.entries ++ appendedNodes db.activeLeafId items stamps)
    (db.transcriptStore.appendTranscriptItems items stamps).activeLeafId = _
  have grown : db.entries ++ appendedNodes db.activeLeafId items stamps =
    (db.transcriptStore.appendTranscriptItems items stamps).nodes := hNodes.symm
  rw [grown]

/-- What a daemon finds at its start, it closes and stores. -/
theorem recoverIfNeeded_recovers {recovered : Daemon} (nodup : (entryIds daemon.db.entries).Nodup)
    (fresh : Fresh stamps daemon.db.entries)
    (hRecovered : daemon.recoverIfNeeded stamps = some recovered) :
    Recovers daemon stamps recovered := by
  rw [Daemon.recoverIfNeeded] at hRecovered
  split at hRecovered
  · rename_i kept
    cases hRecovered
    exact .live kept
  rename_i dropped
  have noRuntime : daemon.active = none := by simpa using dropped
  split at hRecovered
  · rename_i boundary
    split at hRecovered
    · cases hRecovered
      exact .boundary noRuntime boundary (daemon.db.targets_finishUnfinished .stale)
    · cases hRecovered
      exact .boundary noRuntime boundary rfl
  · split at hRecovered
    · cases hRecovered
    · rename_i session loaded
      cases hRecovered
      obtain ⟨items, rfl, boundary, _⟩ := fromStoredSession_ok loaded
      have grown := recoverSession_grown nodup fresh items
      refine .closed noRuntime grown ?_ ?_ ?_
      · exact (congrArg isTurnBoundary grown).trans boundary
      · have frame := daemon.db.insertEntries_frame
        rw [Database.targets, Database.recoverSession]
        simp [Database.markUnfinishedActionsStale, Database.finishUnfinished, (frame _).2.1,
          Database.targets]
      · exact (daemon.db.insertEntries_frame _).2.2

theorem Recovers.settled {recovered : Daemon} (recovers : Recovers daemon stamps recovered) :
    recovered.active.isSome ∨ recovered.db.activeLeafIsTurnBoundary := by
  cases recovers with
  | live kept => exact .inl kept
  | boundary _ boundary | closed _ _ boundary => exact .inr boundary

/-- The runtime that is loaded from rows at a boundary. -/
def runtimeAt (db : Database) : RuntimeSession where
  session := sessionAt db.transcriptStore
  persistedActiveLeafId := db.activeLeafId

theorem ensureActiveLoaded_loads {loaded : Daemon}
    (settled : daemon.active.isSome ∨ daemon.db.activeLeafIsTurnBoundary)
    (hLoaded : daemon.ensureActiveLoaded stamps = some loaded) :
    (daemon.active.isSome ∧ loaded = daemon) ∨
      (daemon.active = none ∧ daemon.db.activeLeafIsTurnBoundary ∧
        loaded = { daemon with active := some (runtimeAt daemon.db) }) := by
  rw [Daemon.ensureActiveLoaded] at hLoaded
  split at hLoaded
  · rename_i kept
    exact .inl ⟨kept, (Option.some.inj hLoaded).symm⟩
  · rename_i dropped
    have boundary := settled.resolve_left dropped
    split at hLoaded
    · cases hLoaded
    · rename_i session hSession
      cases hLoaded
      obtain ⟨_, rfl, _, noItems⟩ := fromStoredSession_ok hSession
      rw [noItems boundary]
      exact .inr ⟨by simpa using dropped, boundary, rfl⟩

theorem runtimeAt_synced (nodup : (entryIds db.entries).Nodup) (withReplay : Bool) :
    Synced withReplay db (runtimeAt db) where
  nodup := nodup
  nodes := rfl
  leaf := rfl
  persisted := rfl
  actions := rfl
  events := rfl

end PiRelay.Runtime
