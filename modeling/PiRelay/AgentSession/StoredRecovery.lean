import PiRelay.AgentSession.TurnClosing

/-! Loading a stored session. What is loaded is the stored forest with the open turn
closed below its active leaf. It stands at a boundary, so storing and loading it
again changes nothing. -/
namespace PiRelay.Session

open AgentVocab AgentCore ModelContext TranscriptStore List

def StoredSession.transcriptStore (stored : StoredSession) : TranscriptStore where
  nodes := stored.entries
  activeLeafId := stored.activeLeafId

/-- The active leaf is an entry, or there is none. -/
def StoredSession.LeafKnown (stored : StoredSession) : Prop :=
  ∀ leafId ∈ stored.activeLeafId, leafId ∈ entryIds stored.entries

/-- Each entry stands below the one before it, the first below the given leaf. -/
def Chained : Option EntryId → List TranscriptStorageNode → Option EntryId → Prop
  | leafId, [], lastId => lastId = leafId
  | leafId, node :: rest, lastId => node.parentId = leafId ∧ Chained (some node.id) rest lastId

theorem appendTranscriptItems_chained (store : TranscriptStore) (items : List TranscriptItem)
    (stamps : Nat → EntryStamp) :
    Chained store.activeLeafId (appendedNodes store.activeLeafId items stamps)
      (store.appendTranscriptItems items stamps).activeLeafId := by
  induction items generalizing store stamps with
  | nil => rfl
  | cons item _ ih =>
    exact ⟨rfl, ih (store.appendItem item [] (stamps 0)) fun draw => stamps (draw + 1)⟩

variable (key : ToolCallId × String)

variable (items : List TranscriptItem)

/-- How often the tool calls, the starts and the results of some items name a call. -/
def callCount : Nat :=
  ((ModelContext.assistantToolCalls items).map ToolCall.key).count key

def startCount : Nat :=
  ((ModelContext.startedToolCalls items).map ToolCall.key).count key

def resultCount : Nat :=
  ((ModelContext.toolResults items).map ToolResultMessage.key).count key

theorem closed_turn_paired {items : List TranscriptItem} {turnId : TurnId} {start : Nat}
    (found : ModelContext.openTurnStart items = some (turnId, start)) (outcome : TurnOutcome)
    (key : ToolCallId × String) :
    let closed := (items ++ closingItems items turnId start outcome).drop start
    callCount key closed = callCount key (items.drop start) ∧ startCount key closed =
        max (startCount key (items.drop start)) (callCount key (items.drop start)) ∧
      resultCount key closed =
        max (resultCount key (items.drop start)) (callCount key (items.drop start)) := by
  intro closed
  have within := openTurnStart_lt found
  have hClosed : closed = items.drop start ++ closingItems items turnId start outcome :=
    drop_append_of_le_length (Nat.le_of_lt within)
  rw [hClosed]
  refine ⟨?_, ?_, ?_⟩
  · have noCalls : assistantToolCalls (closingItems items turnId start outcome) = [] := by
      rw [assistantToolCalls, flatMap_eq_nil_iff]
      intro item mem
      rcases Library.mem_concat.mp mem with added | last
      · rcases mem_completeToolCalls added with ⟨toolCall, rfl⟩ | ⟨result, rfl⟩ <;> rfl
      · rw [last]
    rw [callCount, assistantToolCalls, flatMap_append,
      ← assistantToolCalls, ← assistantToolCalls, noCalls,
      append_nil]
    rfl
  · rw [startCount, startCount, callCount, ← count_completed_starts turnId _ _
      (toolResults (items.drop start)), closingItems]
    simp [startedToolCalls]
  · rw [resultCount, resultCount, callCount, ← count_completed_results turnId _
      (startedToolCalls (items.drop start)), closingItems]
    simp [toolResults]

/-- The two ways to load a stored session after a crash. -/
inductive Recovery where
  | crashed
  | interrupted

namespace Recovery

def load : Recovery → StoredSession → (Nat → EntryStamp) →
    Except HistoryOperationError AgentSession
  | .crashed => AgentSession.fromStoredSession
  | .interrupted => AgentSession.fromStoredSessionInterrupted

def outcome : Recovery → TurnOutcome
  | .crashed => .crashed
  | .interrupted => .interrupted

def events : Recovery → List TranscriptStorageNode → List SessionEvent
  | .crashed, _ => []
  | .interrupted, appended => appended.map fun entry => .transcriptItemAppended entry.id entry.item

end Recovery

namespace AgentSession

/-- What loading a stored session makes of it. -/
structure Recovered (stored : StoredSession) (appended : List TranscriptStorageNode)
    (session : AgentSession) : Prop where
  kept : session.transcriptStore.entries = stored.entries ++ appended
  chained : Chained stored.activeLeafId appended session.transcriptStore.activeLeafId
  extended : session.modelContext.items =
    stored.transcriptStore.modelContext.items ++ appended.map (·.item)
  atBoundary : session.transcriptStore.isTurnBoundary = true
  idle : session.core.state = .idle
  lastTurn : session.core.lastTurnId = session.modelContext.lastTurnId
  nothingOutstanding : session.outstandingActions = {} ∧ session.actionOutbox = []
  paired : ∀ turnId start,
    ModelContext.openTurnStart stored.transcriptStore.modelContext.items = some (turnId, start) →
    ∀ key,
      startCount key (session.modelContext.items.drop start) =
          max (startCount key (stored.transcriptStore.modelContext.items.drop start))
            (callCount key (session.modelContext.items.drop start)) ∧
        resultCount key (session.modelContext.items.drop start) =
          max (resultCount key (stored.transcriptStore.modelContext.items.drop start))
            (callCount key (session.modelContext.items.drop start))
  settled : ∀ (again : Recovery) sessionId stamps, ∃ reloaded,
    again.load (session.toStoredSession sessionId) stamps = .ok reloaded ∧
      reloaded.transcriptStore = session.transcriptStore ∧ reloaded.eventOutbox = []

theorem resumedCore_of_boundary {context : ModelContext}
    (boundary : ModelContext.isTurnBoundaryItems context.items) :
    resumedCore context = .resumeAt context.lastTurnId ActionId.first := by
  have settled : context.openTurnReadyToContinue = none := by
    rw [openTurnReadyToContinue, openTurnReadyToContinueItems, openTurnStart_of_boundary boundary]
  rw [resumedCore, settled]

variable {stored : StoredSession}

section

variable (forest : StoredForest stored.entries)
include forest

theorem fromStorageEntries_of_forest :
    (stored.LeafKnown → TranscriptStore.fromStorageEntries stored.entries stored.activeLeafId =
        .ok stored.transcriptStore) ∧
      (¬ stored.LeafKnown → TranscriptStore.fromStorageEntries stored.entries stored.activeLeafId =
        .error .entryNotFound) := by
  have parents : stored.entries.all (fun entry => entry.parentId.all fun parentId =>
      (entryIds stored.entries).contains parentId) := by
    rw [List.all_eq_true]
    intro entry mem
    rw [Option.all_eq_true]
    intro parentId hParent
    exact contains_iff_mem.mpr (forest.parents entry mem parentId hParent)
  have leaf : stored.activeLeafId.all (fun leafId => (entryIds stored.entries).contains leafId) =
      true ↔ stored.LeafKnown := by
    rw [Option.all_eq_true]
    constructor
    · exact fun all leafId hLeaf => contains_iff_mem.mp (all leafId hLeaf)
    · exact fun known leafId hLeaf => contains_iff_mem.mpr (known leafId hLeaf)
  have distinct : (stored.entries.map (·.id)).Nodup := forest.distinct
  have start : fromStorageEntries stored.entries stored.activeLeafId =
      if ¬ (stored.activeLeafId.all fun leafId => (entryIds stored.entries).contains leafId) then
        .error .entryNotFound
      else .ok stored.transcriptStore := by
    unfold entryIds at parents
    rw [fromStorageEntries]
    rw [if_neg (not_not_intro distinct), if_neg (not_not_intro parents)]
    rfl
  rw [start]
  constructor
  · exact fun known => if_neg (not_not_intro (leaf.mpr known))
  · exact fun unknown => if_pos (fun all => unknown (leaf.mp all))

/-- The session around a store that was closed. -/
structure Resumed (recovery : Recovery) (stored : StoredSession) (session : AgentSession) :
    Prop where
  core : session.core = resumedCore session.modelContext ∨
    session.core = .resumeAt session.modelContext.lastTurnId ActionId.first
  ledger : session.outstandingActions = {}
  actions : session.actionOutbox = []
  events : session.eventOutbox =
    recovery.events (session.transcriptStore.entries.drop stored.entries.length)

/-- A load fails where the open turn cannot be closed, or it resumes. -/
theorem load_cases (known : stored.LeafKnown) (recovery : Recovery) (stamps : Nat → EntryStamp) :
    (∃ error, closeTranscriptStoreOpenTurnTo recovery.outcome stored.transcriptStore stamps =
        .error error ∧ recovery.load stored stamps = .error error) ∨
      ∃ session, closeTranscriptStoreOpenTurnTo recovery.outcome stored.transcriptStore stamps =
          .ok session.transcriptStore ∧ recovery.load stored stamps = .ok session ∧
        session.Resumed recovery stored := by
  have restored := (fromStorageEntries_of_forest forest).1 known
  cases recovery with
  | crashed =>
    rw [Recovery.load, fromStoredSession, restored]
    simp only [fromTranscriptStore, closeTranscriptStoreOpenTurn, Recovery.outcome]
    cases closeTranscriptStoreOpenTurnTo .crashed stored.transcriptStore stamps with
    | error error => exact .inl ⟨error, rfl, rfl⟩
    | ok => exact .inr ⟨_, rfl, rfl, .inl rfl, rfl, rfl, rfl⟩
  | interrupted =>
    rw [Recovery.load, fromStoredSessionInterrupted, restored]
    simp only [closeTranscriptStoreOpenTurnAsInterrupted, Recovery.outcome]
    cases closeTranscriptStoreOpenTurnTo .interrupted stored.transcriptStore stamps with
    | error error => exact .inl ⟨error, rfl, rfl⟩
    | ok => exact .inr ⟨_, rfl, rfl, .inr rfl, rfl, rfl, rfl⟩

theorem load_of_boundary (known : stored.LeafKnown)
    (boundary : stored.transcriptStore.isTurnBoundary) (recovery : Recovery)
    (stamps : Nat → EntryStamp) :
    ∃ session, recovery.load stored stamps = .ok session ∧
      session.transcriptStore = stored.transcriptStore ∧ session.eventOutbox = [] := by
  have unchanged : closeTranscriptStoreOpenTurnTo recovery.outcome stored.transcriptStore stamps =
      .ok stored.transcriptStore := by
    rw [closeTranscriptStoreOpenTurnTo_eq, if_pos boundary]
  rcases load_cases forest known recovery stamps with
    ⟨error, failed, _⟩ | ⟨session, closed, loaded, resumed⟩
  · rw [unchanged] at failed
    cases failed
  · rw [unchanged] at closed
    have same := Except.ok.inj closed
    refine ⟨session, loaded, same.symm, ?_⟩
    have nothing : session.transcriptStore.entries.drop stored.entries.length = [] := by
      rw [← same, entries_eq_nodes forest.distinct]
      exact drop_length
    rw [resumed.events, nothing]
    cases recovery <;> rfl

end

theorem closed_appends {store closedStore : TranscriptStore} {outcome : TurnOutcome}
    {stamps : Nat → EntryStamp}
    (closed : closeTranscriptStoreOpenTurnTo outcome store stamps = .ok closedStore) :
    ∃ items, closedStore = store.appendTranscriptItems items stamps ∧
      closedStore.isTurnBoundary ∧
      ((store.isTurnBoundary ∧ items = []) ∨
        ∃ turnId start,
          ModelContext.openTurnStart store.modelContext.items = some (turnId, start) ∧
            items = ModelContext.closingItems store.modelContext.items turnId start outcome) := by
  rw [closeTranscriptStoreOpenTurnTo_eq] at closed
  split at closed
  · rename_i boundary
    rw [← Except.ok.inj closed]
    exact ⟨[], rfl, boundary, .inl ⟨boundary, rfl⟩⟩
  · split at closed
    · cases closed
    · rename_i turnId start found
      rw [← Except.ok.inj closed]
      refine ⟨_, rfl, ?_, .inr ⟨turnId, start, found, rfl⟩⟩
      rw [appendTranscriptItems_isTurnBoundary, endsAtBoundary]
      simp [closingItems, TranscriptItem.isTurnBoundary]

theorem toStoredSession_restored {session : AgentSession}
    (restored : session.transcriptStore.Restored) (sessionId : String) :
    (session.toStoredSession sessionId).entries = session.transcriptStore.nodes ∧
      (session.toStoredSession sessionId).transcriptStore = session.transcriptStore ∧
      StoredForest (session.toStoredSession sessionId).entries ∧
      (session.toStoredSession sessionId).LeafKnown := by
  have hNodes := entries_eq_nodes restored.forest.distinct
  refine ⟨hNodes, ?_, ?_, ?_⟩
  · rw [StoredSession.transcriptStore, toStoredSession, hNodes]
  · rw [toStoredSession, hNodes]
    exact restored.forest
  · rw [StoredSession.LeafKnown, toStoredSession, hNodes]
    exact restored.leaf

theorem recovered_of_closed (forest : StoredForest stored.entries) (known : stored.LeafKnown)
    {recovery : Recovery} {stamps : Nat → EntryStamp} (fresh : Fresh stamps stored.entries)
    {session : AgentSession}
    (closed : closeTranscriptStoreOpenTurnTo recovery.outcome stored.transcriptStore stamps =
      .ok session.transcriptStore) (resumed : session.Resumed recovery stored) :
    ∃ appended, Recovered stored appended session ∧
      session.eventOutbox = recovery.events appended := by
  have before : stored.transcriptStore.Restored := ⟨forest, known⟩
  obtain ⟨items, hStore, boundary, closing⟩ := closed_appends closed
  have after : session.transcriptStore.Restored := hStore ▸ before.appendTranscriptItems fresh
  have hEntries : session.transcriptStore.entries =
      stored.entries ++ appendedNodes stored.activeLeafId items stamps := by
    rw [entries_eq_nodes after.forest.distinct, hStore, appendTranscriptItems_nodes]
    rfl
  have hItems : session.modelContext.items =
      stored.transcriptStore.modelContext.items ++ items := by
    rw [AgentSession.modelContext, hStore]
    exact before.modelContext_appendTranscriptItems items fresh
  have atEnd : isTurnBoundaryItems session.modelContext.items := by
    rw [AgentSession.modelContext, ← after.isTurnBoundary_eq]
    exact boundary
  have hCore : session.core = .resumeAt session.modelContext.lastTurnId ActionId.first := by
    rcases resumed.core with hCore | hCore
    · rw [hCore, resumedCore_of_boundary atEnd]
    · exact hCore
  refine ⟨appendedNodes stored.activeLeafId items stamps, ?_, ?_⟩
  · refine
      { kept := hEntries
        chained := ?_
        extended := by rw [hItems, appendedNodes_items]
        atBoundary := boundary
        idle := by rw [hCore]; rfl
        lastTurn := by rw [hCore]; rfl
        nothingOutstanding := ⟨resumed.ledger, resumed.actions⟩
        paired := ?_
        settled := ?_ }
    · rw [hStore]
      exact appendTranscriptItems_chained stored.transcriptStore items stamps
    · intro turnId start found key
      obtain ⟨calls, starts, results⟩ := closed_turn_paired found recovery.outcome key
      rcases closing with ⟨settled, _⟩ | ⟨otherTurn, otherStart, other, closing⟩
      · rw [before.isTurnBoundary_eq] at settled
        rw [openTurnStart_of_boundary settled] at found
        cases found
      · rw [found] at other
        cases other
        rw [hItems, closing, calls]
        exact ⟨starts, results⟩
    · intro again sessionId others
      obtain ⟨_, same, storedForest, leafKnown⟩ := toStoredSession_restored after sessionId
      rw [← same]
      exact load_of_boundary storedForest leafKnown (same ▸ boundary) again others
  · rw [resumed.events, hEntries, drop_left]

/-- Loading a stored forest fails where the active leaf is no entry, or where it is
no boundary and no turn is open on its path; otherwise the session is recovered. -/
theorem stored_session_recovery {stored : StoredSession} (forest : StoredForest stored.entries)
    {stamps : Nat → EntryStamp} (fresh : Fresh stamps stored.entries) (recovery : Recovery) :
    (∀ error, recovery.load stored stamps = .error error ↔
      (error = .store .entryNotFound ∧ ¬ stored.LeafKnown) ∨
        (error = .store .notTurnBoundary ∧ stored.LeafKnown ∧
          stored.transcriptStore.isTurnBoundary = false ∧
          ModelContext.openTurnStart stored.transcriptStore.modelContext.items = none)) ∧
      ∀ session, recovery.load stored stamps = .ok session →
        ∃ appended, Recovered stored appended session ∧
          session.eventOutbox = recovery.events appended := by
  by_cases known : stored.LeafKnown
  · have closing := closeTranscriptStoreOpenTurnTo_eq recovery.outcome stored.transcriptStore stamps
    rcases load_cases forest known recovery stamps with
      ⟨failure, failed, loaded⟩ | ⟨session, closed, loaded, resumed⟩
    · rw [failed] at closing
      have cause : failure = .store .notTurnBoundary ∧
          stored.transcriptStore.isTurnBoundary = false ∧
          openTurnStart stored.transcriptStore.modelContext.items = none := by
        split at closing
        · cases closing
        · rename_i notBoundary
          split at closing
          · rename_i none
            exact ⟨Except.error.inj closing, by simpa using notBoundary, none⟩
          · cases closing
      constructor
      · intro error
        rw [loaded]
        constructor
        · intro same
          rw [← Except.error.inj same]
          exact .inr ⟨cause.1, known, cause.2⟩
        · rintro (⟨_, unknown⟩ | ⟨rfl, _⟩)
          · exact absurd known unknown
          · rw [cause.1]
      · intro session found
        rw [loaded] at found
        cases found
    · constructor
      · intro error
        rw [loaded]
        constructor
        · simp
        · rintro (⟨_, unknown⟩ | ⟨_, _, notBoundary, none⟩)
          · exact absurd known unknown
          · rw [closing, if_neg (by rw [notBoundary]; exact Bool.false_ne_true), none] at closed
            cases closed
      · intro other found
        rw [loaded] at found
        rw [← Except.ok.inj found]
        exact recovered_of_closed forest known fresh closed resumed
  · have failed : recovery.load stored stamps = .error (.store .entryNotFound) := by
      have notFound := (fromStorageEntries_of_forest forest).2 known
      cases recovery with
      | crashed => rw [Recovery.load, fromStoredSession, notFound]
      | interrupted => rw [Recovery.load, fromStoredSessionInterrupted, notFound]
    rw [failed]
    refine ⟨?_, by simp⟩
    intro error
    constructor
    · intro same
      exact .inl ⟨(Except.error.inj same).symm, known⟩
    · rintro (⟨rfl, _⟩ | ⟨_, leaf, _⟩)
      · rfl
      · exact absurd leaf known

/-- A batch that had not started when the process died, stored child first: three
entries close it. -/
theorem stored_session_recovery_batch :
    let message : AssistantMessage := { items := [.toolCall ⟨"c", "bash", "\x7b\x7d"⟩] }
    let stored : StoredSession :=
      { sessionId := "s"
        activeLeafId := some "b"
        entries :=
          [⟨"b", some "a", 1, .assistantMessage message, []⟩, ⟨"a", none, 0, .turnStarted 1, []⟩] }
    ∃ session, Recovery.interrupted.load stored (stampsFrom 2) = .ok session ∧
      session.eventOutbox.length = 3 ∧ ∃ appended, Recovered stored appended session ∧
        session.eventOutbox = Recovery.interrupted.events appended := by
  intro message stored
  have forest : StoredForest stored.entries :=
    { distinct := by decide
      parents := by simp [stored, entryIds]
      acyclic := ⟨fun id => if id = "b" then 1 else 0, by simp [stored]⟩ }
  have fresh : Fresh (stampsFrom 2) stored.entries := stampsFrom_fresh (by decide)
  have recovered := (stored_session_recovery forest fresh .interrupted).2
  have three : (Recovery.interrupted.load stored (stampsFrom 2)).toOption.map
      (·.eventOutbox.length) = some 3 := by decide +kernel
  cases loaded : Recovery.interrupted.load stored (stampsFrom 2) with
  | error =>
    rw [loaded] at three
    cases three
  | ok session =>
    rw [loaded] at three
    exact ⟨session, rfl, Option.some.inj three, recovered session loaded⟩

/-- A leaf that names no entry is refused as such. And a call that was stored with
two results keeps both. -/
theorem stored_session_recovery_refuses :
    (∃ stored : StoredSession, StoredForest stored.entries ∧ ∀ recovery : Recovery, ∀ stamps,
      (∀ session, recovery.load stored stamps ≠ .ok session) ∧
        recovery.load stored stamps ≠ .error (.store .notTurnBoundary)) ∧
    ∃ stored : StoredSession, StoredForest stored.entries ∧ Fresh (stampsFrom 2) stored.entries ∧
      ∃ session, fromStoredSession stored (stampsFrom 2) = .ok session ∧
        callCount ("c", "bash") session.modelContext.items = 1 ∧
        resultCount ("c", "bash") session.modelContext.items = 2 := by
  refine ⟨⟨{ sessionId := "s", activeLeafId := some "x", entries := [] }, ?_, ?_⟩, ?_⟩
  · exact
      { distinct := nodup_nil
        parents := by simp
        acyclic := ⟨fun _ => 0, by simp⟩ }
  · intro recovery stamps
    cases recovery <;> simp [Recovery.load, fromStoredSession, fromStoredSessionInterrupted,
      fromStorageEntries]
  · let message : AssistantMessage := { items := [.toolCall ⟨"c", "bash", "\x7b\x7d"⟩] }
    let result : TranscriptItem := .toolResult ⟨"c", "bash", "", .success⟩
    let entries : List TranscriptStorageNode :=
      [⟨"1", none, 0, .turnStarted 1, []⟩, ⟨"2", some "1", 0, .assistantMessage message, []⟩,
        ⟨"3", some "2", 0, result, []⟩, ⟨"4", some "3", 0, result, []⟩]
    refine ⟨{ sessionId := "s", activeLeafId := some "4", entries }, ?_, ?_, ?_⟩
    · exact
        { distinct := by decide
          parents := by simp [entries, entryIds]
          acyclic := ⟨fun id => (entryIds entries).idxOf id, by decide⟩ }
    · exact stampsFrom_fresh (by decide)
    · have counted : (fromStoredSession { sessionId := "s", activeLeafId := some "4", entries }
          (stampsFrom 2)).toOption.map (fun session =>
            (callCount ("c", "bash") session.modelContext.items,
              resultCount ("c", "bash") session.modelContext.items)) = some (1, 2) := by
        decide +kernel
      cases loaded : fromStoredSession { sessionId := "s", activeLeafId := some "4", entries }
          (stampsFrom 2) with
      | error error =>
        rw [loaded] at counted
        cases counted
      | ok session =>
        rw [loaded] at counted
        injection Option.some.inj counted with calls results
        exact ⟨session, rfl, calls, results⟩

end AgentSession

end PiRelay.Session
