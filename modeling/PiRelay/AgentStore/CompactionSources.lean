import PiRelay.AgentSession.OpenTurns
import PiRelay.AgentStore.RecordedActions

/-! What a compaction that blocks a model action reads of its source: the context up to the
leaf of the action, the last turn in it, and when the turn of the action has started. -/
namespace PiRelay.Store

open AgentVocab AgentCore Session List

/-- The start of a turn in the entries, searched from the last one back. After a compaction
its root keeps the time. -/
def turnStartedAtMsForTurn (entries : List TranscriptStorageNode) (turnId : TurnId) : Option Nat :=
  entries.reverse.findSome? fun entry =>
    match entry.item with
    | .turnStarted entryTurnId => if entryTurnId = turnId then some entry.timestampMs else none
    | .compactionSummary summary =>
      if summary.lastTurnId = turnId then summary.turnStartedAtMs else none
    | _ => none

structure CompactionSource where
  modelContext : ModelContext
  lastTurnId : TurnId
  turnStartedAtMs : Option Nat

def readBlockingSource (sourceEntries : List TranscriptStorageNode) (sourceLeafId : EntryId)
    (turnId : TurnId) : Except String CompactionSource :=
  if sourceEntries.isEmpty then .error ("transcript leaf not found: " ++ sourceLeafId)
  else
    let modelContext := contextOf sourceEntries
    if modelContext.items.isEmpty then .error "cannot compact an empty model context"
    else
      match turnStartedAtMsForTurn sourceEntries turnId with
      | none =>
        .error ("blocking compaction source is missing turn_started for turn " ++ toString turnId)
      | some startedAtMs =>
        .ok
          { modelContext
            lastTurnId := modelContext.lastTurnId
            turnStartedAtMs := some startedAtMs }

/-- The job together with the context it is for. -/
structure SourcedCompactionJob where
  stored : StoredCompactionJob
  modelContext : ModelContext

/-- What the compaction request is made from. A long open turn is what has to become
shorter, so its items are summarized too. -/
def compactionContextForScope (modelContext : ModelContext) : CompactionScope → ModelContext
  | .boundary _ => modelContext
  | .midTurn _ _ _ _ _ => modelContext

/-- A model action that is to wait for a compaction, as its row has it. -/
structure BlockingModel where
  sessionId : String
  sourceLeafId : EntryId
  turnId : TurnId
  actionId : ActionId
  rowId : String
  attemptId : String

/-- What a new job draws and is given. -/
structure JobRequest where
  actionRowId : String
  attemptId : String
  tokensBefore : Option Nat
  trigger : CompactionTrigger

def BlockingModel.job (model : BlockingModel) (request : JobRequest) (source : CompactionSource) :
    SourcedCompactionJob where
  stored :=
    { actionRowId := request.actionRowId
      attemptId := request.attemptId
      sourceSessionId := model.sessionId
      sourceLeafId := model.sourceLeafId
      tokensBefore := request.tokensBefore
      lastTurnId := source.lastTurnId
      turnStartedAtMs := source.turnStartedAtMs
      trigger := request.trigger
      scope := .midTurn model.sourceLeafId model.turnId model.actionId model.rowId model.attemptId }
  modelContext := source.modelContext

def blockingCompactionJob (store : TranscriptStore) (model : BlockingModel)
    (request : JobRequest) : Except String SourcedCompactionJob :=
  (readBlockingSource (store.pathEntries (some model.sourceLeafId)) model.sourceLeafId
    model.turnId).map (model.job request)

section OpenBranches

variable {turnId : TurnId} {startedAtMs : Nat} {before tail : List TranscriptStorageNode}
  {start : TranscriptStorageNode}

section

variable (branch : OpenBranch turnId startedAtMs before start tail)
include branch

theorem turnStartedAtMsForTurn_of_open :
    turnStartedAtMsForTurn (before ++ start :: tail) turnId = some startedAtMs := by
  have reversed : (before ++ start :: tail).reverse = tail.reverse ++ start :: before.reverse := by
    simp
  rw [turnStartedAtMsForTurn, reversed]
  have inTurn : ∀ entry ∈ tail.reverse, InOpenTurn turnId entry.item :=
    fun entry mem => branch.inTurn entry (mem_reverse.mp mem)
  generalize tail.reverse = passed at inTurn
  induction passed with
  | nil =>
    have opens := branch.opens
    rw [Opens] at opens
    split at opens
    · rename_i opened isStart
      simp [isStart, opens.1, opens.2]
    · rename_i summary isRoot
      simp [isRoot, opens.1, opens.2]
    · cases opens
  | cons entry _ ih =>
    have inside := inTurn entry (.head _)
    have later := ih (forall_mem_cons.mp inTurn).2
    rw [cons_append, findSome?_cons]
    cases isItem : entry.item with
    | turnStarted | turnFinished | compactionSummary => rw [isItem] at inside; cases inside
    | _ => exact later

theorem readBlockingSource_of_open (sourceLeafId : EntryId) :
    readBlockingSource (before ++ start :: tail) sourceLeafId turnId =
      .ok
        { modelContext := contextOf (before ++ start :: tail)
          lastTurnId := turnId
          turnStartedAtMs := some startedAtMs } := by
  have someEntries : (before ++ start :: tail).isEmpty = false := by simp
  have someItems : (contextOf (before ++ start :: tail)).items.isEmpty = false := by
    simp [contextOf_items]
  simp only [readBlockingSource, someEntries, someItems, turnStartedAtMsForTurn_of_open branch,
    branch.lastTurnId, Bool.false_eq_true, if_false]

end

end OpenBranches

/-- The ids that a transaction draws are new. -/
def DrawsFresh (ids : Nat → EntryId) (nodes : List TranscriptStorageNode) : Prop :=
  Fresh (fun draw => { id := ids draw, timestampMs := 0 }) nodes

variable {ids : Nat → EntryId}

theorem DrawsFresh.shift {nodes : List TranscriptStorageNode} (fresh : DrawsFresh ids nodes)
    (entry : TranscriptStorageNode) (first : entry.id = ids 0) :
    DrawsFresh (fun draw => ids (draw + 1)) (nodes ++ [entry]) :=
  Fresh.shift fresh entry first

/-- The entries are written below the given one, and the last of them is the new leaf. -/
def appendSuffix (store : TranscriptStore) (parentId : EntryId) (timestampMs : Nat)
    (ids : Nat → EntryId) (suffix : List ModelContextEntry) : TranscriptStore where
  nodes := store.nodes ++ suffixEntries parentId timestampMs ids suffix
  activeLeafId := some (suffixLeafId parentId ids suffix)

/-- What the transaction of a finished compaction does to the transcript. -/
def installCompaction (store : TranscriptStore) (job : StoredCompactionJob)
    (completion : CompactionCompletion) (ids : Nat → EntryId) (rootTimestampMs : Nat) :
    TranscriptStore where
  nodes := store.nodes ++ job.installedEntries completion ids rootTimestampMs
  activeLeafId := some (completion.installedActiveLeafId ids)

theorem appendSuffix_rooted {store : TranscriptStore} {parentId : EntryId} (rooted : store.Rooted)
    (active : store.activeLeafId = some parentId) (fresh : DrawsFresh ids store.nodes)
    (timestampMs : Nat) (suffix : List ModelContextEntry) :
    (appendSuffix store parentId timestampMs ids suffix).Rooted ∧
      (appendSuffix store parentId timestampMs ids suffix).pathEntries
          (some (suffixLeafId parentId ids suffix)) =
        store.pathEntries store.activeLeafId ++ suffixEntries parentId timestampMs ids suffix := by
  induction suffix generalizing store parentId timestampMs ids with
  | nil =>
    have same : appendSuffix store parentId timestampMs ids [] = store := by
      rw [appendSuffix, suffixEntries, suffixLeafId, append_nil, ← active]
    rw [same, suffixEntries, suffixLeafId, append_nil, active]
    exact ⟨rooted, rfl⟩
  | cons entry rest ih =>
    let stored : TranscriptStorageNode :=
      { id := ids 0
        parentId := some parentId
        timestampMs := timestampMs + 1
        item := entry.item
        providerReplay := entry.providerReplay }
    have unused := fresh.unused 0
    have parent : ∀ otherId ∈ stored.parentId, otherId ∈ entryIds store.nodes := by
      intro otherId isParent
      exact rooted.leaf otherId (active ▸ isParent)
    have grown := rooted.appendEntry unused parent
    have path := TranscriptStore.pathEntries_appendEntry rooted.forest unused parent
    have goesOn : appendSuffix store parentId timestampMs ids (entry :: rest) =
        appendSuffix (store.appendEntry stored) (ids 0) (timestampMs + 1)
          (fun draw => ids (draw + 1)) rest := by
      simp [appendSuffix, suffixEntries, suffixLeafId, TranscriptStore.appendEntry, stored]
    obtain ⟨stays, later⟩ := ih grown rfl (fresh.shift stored rfl) (timestampMs + 1)
    rw [goesOn]
    refine ⟨stays, ?_⟩
    rw [suffixLeafId, later, suffixEntries]
    show (store.appendEntry stored).pathEntries (some stored.id) ++ _ = _
    rw [path, active]
    simp [stored]

/-- What is installed is a root with the suffix below it. -/
theorem installCompaction_rooted {store : TranscriptStore} (rooted : store.Rooted)
    (job : StoredCompactionJob) (completion : CompactionCompletion)
    (fresh : DrawsFresh ids store.nodes) (rootTimestampMs : Nat) :
    (installCompaction store job completion ids rootTimestampMs).Rooted ∧
      (installCompaction store job completion ids rootTimestampMs).pathEntries
          (installCompaction store job completion ids rootTimestampMs).activeLeafId =
        job.installedEntries completion ids rootTimestampMs := by
  let root := job.rootEntry completion ids rootTimestampMs
  have unused := fresh.unused 0
  have parent : ∀ otherId ∈ root.parentId, otherId ∈ entryIds store.nodes := nofun
  have path := TranscriptStore.pathEntries_appendEntry rooted.forest unused parent
  have bare : store.pathEntries root.parentId = [] := by
    show (store.walkToRoot store.nodes.length none).reverse = []
    cases store.nodes.length <;> rfl
  rw [bare, nil_append] at path
  have same : installCompaction store job completion ids rootTimestampMs =
      appendSuffix (store.appendEntry root) (ids 0) rootTimestampMs (fun draw => ids (draw + 1))
        completion.continuationSuffix := by
    simp [installCompaction, appendSuffix, StoredCompactionJob.installedEntries,
      CompactionCompletion.installedActiveLeafId, TranscriptStore.appendEntry, root]
  obtain ⟨stays, later⟩ := appendSuffix_rooted (rooted.appendEntry unused parent) rfl
    (fresh.shift root rfl) rootTimestampMs completion.continuationSuffix
  rw [same]
  refine ⟨stays, later.trans ?_⟩
  show (store.appendEntry root).pathEntries (some root.id) ++ _ = _
  rw [path]
  rfl

end PiRelay.Store
