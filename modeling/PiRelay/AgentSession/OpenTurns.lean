import PiRelay.AgentSession.AppendedEntries

/-! The open turn at the end of a branch. It starts with the entry that opened it, or with
the compacted root that stands for that entry, and nothing after the start closes it. -/
namespace PiRelay.Session

open AgentVocab AgentCore List Option

/-- What a turn gets between its start and its end. -/
def InOpenTurn (turnId : TurnId) : TranscriptItem → Prop
  | .userMessage _ | .daemonToolObservation _ | .assistantMessage _ | .toolResult _ => True
  | .toolCallStarted startedTurnId _ => startedTurnId = turnId
  | .turnStarted _ | .turnFinished _ _ | .compactionSummary _ => False

def userMessages (items : List TranscriptItem) : List UserMessage :=
  items.filterMap fun
    | .userMessage message => some message
    | _ => none

@[simp] theorem userMessages_append (first second : List TranscriptItem) :
    userMessages (first ++ second) = userMessages first ++ userMessages second :=
  filterMap_append

def ModelContext.openTurnEntries (context : ModelContext) :
    Option (List (TranscriptItem × List ProviderReplayItem)) :=
  (openTurnStart context.items).map fun (_, turnStart) =>
    (context.items.drop turnStart).zip (context.providerReplay.drop turnStart)

/-- The scan passes over all that is within the open turn. -/
theorem ModelContext.openTurnScan_append {turnId : TurnId} {passed : List TranscriptItem}
    (inTurn : ∀ item ∈ passed, InOpenTurn turnId item) (before : List TranscriptItem)
    (sawOpenTail : Bool) :
    openTurnScan (passed ++ before) sawOpenTail =
      openTurnScan before (sawOpenTail || !passed.isEmpty) := by
  induction passed generalizing sawOpenTail with
  | nil => simp
  | cons item rest ih =>
    have restInTurn : ∀ later ∈ rest, InOpenTurn turnId later := (forall_mem_cons.mp inTurn).2
    have goesOn : openTurnScan (item :: rest ++ before) sawOpenTail =
        openTurnScan (rest ++ before) true := by
      have inside := inTurn item (.head _)
      cases item with
      | turnStarted | turnFinished | compactionSummary => cases inside
      | _ => rfl
    rw [goesOn, ih restInTurn]
    simp

/-- The entry a turn starts with: the original one, or a compacted root. -/
def Opens (turnId : TurnId) (startedAtMs : Nat) (entry : TranscriptStorageNode) : Prop :=
  match entry.item with
  | .turnStarted openedTurnId => openedTurnId = turnId ∧ entry.timestampMs = startedAtMs
  | .compactionSummary summary =>
    summary.lastTurnId = turnId ∧ summary.turnStartedAtMs = some startedAtMs
  | _ => False

/-- A branch whose last turn is open. A compacted root has nothing before it. -/
structure OpenBranch (turnId : TurnId) (startedAtMs : Nat)
    (before : List TranscriptStorageNode) (start : TranscriptStorageNode)
    (tail : List TranscriptStorageNode) : Prop where
  opens : Opens turnId startedAtMs start
  root : ∀ summary, start.item = .compactionSummary summary → before = []
  inTurn : ∀ entry ∈ tail, InOpenTurn turnId entry.item

variable (entries : List TranscriptStorageNode)

def contextOf : ModelContext :=
  .fromEntries (entries.map TranscriptStorageNode.contextEntry)

theorem contextOf_items : (contextOf entries).items = entries.map (·.item) := by
  rw [contextOf, ModelContext.fromEntries, List.map_map]
  rfl

theorem contextOf_providerReplay :
    (contextOf entries).providerReplay = entries.map (·.providerReplay) := by
  simp only [contextOf, ModelContext.fromEntries, List.map_map]
  rfl

namespace OpenBranch

variable {turnId : TurnId} {startedAtMs : Nat} {before tail : List TranscriptStorageNode}
  {start : TranscriptStorageNode}

section

variable (branch : OpenBranch turnId startedAtMs before start tail)
include branch

theorem tailInTurn : ∀ item ∈ (tail.map (·.item)).reverse, InOpenTurn turnId item := by
  intro item mem
  obtain ⟨entry, inTail, rfl⟩ := mem_map.mp (mem_reverse.mp mem)
  exact branch.inTurn entry inTail

theorem append {entry : TranscriptStorageNode} (inside : InOpenTurn turnId entry.item) :
    OpenBranch turnId startedAtMs before start (tail ++ [entry]) where
  opens := branch.opens
  root := branch.root
  inTurn := by
    intro other mem
    rcases Library.mem_concat.mp mem with old | rfl
    · exact branch.inTurn other old
    · exact inside

end

theorem reverse_items :
    ((before ++ start :: tail).map (·.item)).reverse =
      (tail.map (·.item)).reverse ++ start.item :: (before.map (·.item)).reverse := by
  simp

section

variable (branch : OpenBranch turnId startedAtMs before start tail)
include branch

theorem lastTurnId : (contextOf (before ++ start :: tail)).lastTurnId = turnId := by
  rw [ModelContext.lastTurnId, contextOf_items, reverse_items]
  have inTurn := branch.tailInTurn
  generalize (tail.map (·.item)).reverse = passed at inTurn
  induction passed with
  | nil =>
    have opens := branch.opens
    rw [Opens] at opens
    split at opens
    · rename_i opened isStart
      rw [isStart]
      exact opens.1
    · rename_i summary isRoot
      rw [isRoot]
      exact opens.1
    · cases opens
  | cons item _ ih =>
    have inside := inTurn item (.head _)
    have later := ih (forall_mem_cons.mp inTurn).2
    cases item with
    | turnStarted | turnFinished | compactionSummary => cases inside
    | toolCallStarted startedTurnId =>
      obtain rfl : startedTurnId = turnId := inside
      rfl
    | _ => exact later

theorem openTurnStart :
    ModelContext.openTurnStart (contextOf (before ++ start :: tail)).items =
        some (turnId, before.length) ∨
      ((∃ summary, start.item = .compactionSummary summary) ∧ before = [] ∧ tail = [] ∧
        ModelContext.openTurnStart (contextOf (before ++ start :: tail)).items = none) := by
  rw [ModelContext.openTurnStart, contextOf_items, reverse_items,
    ModelContext.openTurnScan_append branch.tailInTurn]
  have opens := branch.opens
  rw [Opens] at opens
  split at opens
  · rename_i opened isStart
    left
    simp [isStart, ModelContext.openTurnScan, opens.1]
  · rename_i summary isRoot
    cases tail with
    | nil =>
      right
      refine ⟨⟨summary, isRoot⟩, branch.root summary isRoot, rfl, ?_⟩
      simp [isRoot, ModelContext.openTurnScan]
    | cons =>
      left
      simp [isRoot, ModelContext.openTurnScan, opens.1]
  · cases opens

theorem openTurnEntries :
    (contextOf (before ++ start :: tail)).openTurnEntries =
        some ((start :: tail).map fun entry => (entry.item, entry.providerReplay)) ∨
      ((∃ summary, (contextOf (before ++ start :: tail)).items = [.compactionSummary summary]) ∧
        tail = [] ∧ (contextOf (before ++ start :: tail)).openTurnEntries = none) := by
  rcases branch.openTurnStart with found | ⟨⟨summary, isRoot⟩, rfl, rfl, missed⟩
  · left
    rw [ModelContext.openTurnEntries, found, map_some, contextOf_items, contextOf_providerReplay]
    simp only [map_append, drop_left' (length_map _), zip_map']
  · right
    refine ⟨⟨summary, ?_⟩, rfl, ?_⟩
    · simp [contextOf_items, isRoot]
    · rw [ModelContext.openTurnEntries, missed, map_none]

end

end OpenBranch

namespace TranscriptStore

variable {store : TranscriptStore}

theorem pathEntries_appendEntry (forest : Forest store.nodes) {entry : TranscriptStorageNode}
    (unused : entry.id ∉ entryIds store.nodes)
    (parent : ∀ parentId ∈ entry.parentId, parentId ∈ entryIds store.nodes) :
    (store.appendEntry entry).pathEntries (some entry.id) =
      store.pathEntries entry.parentId ++ [entry] := by
  have found : (store.appendEntry entry).getEntry entry.id = some entry := by
    simp [getEntry, appendEntry]
  have length : (store.appendEntry entry).nodes.length = store.nodes.length + 1 := by
    simp [appendEntry]
  rw [pathEntries, length, walkToRoot, found]
  rw [reverse_cons]
  have below : (store.appendEntry entry).walkToRoot store.nodes.length entry.parentId =
      store.walkToRoot store.nodes.length entry.parentId :=
    forest.walkToRoot_snoc unused _ parent
  rw [below, pathEntries]

theorem Rooted.appendEntry (rooted : store.Rooted) {entry : TranscriptStorageNode}
    (unused : entry.id ∉ entryIds store.nodes)
    (parent : ∀ parentId ∈ entry.parentId, parentId ∈ entryIds store.nodes) :
    (store.appendEntry entry).Rooted where
  forest := .snoc rooted.forest unused parent
  leaf := by
    intro leafId hLeaf
    obtain rfl := mem_some_iff.mp hLeaf
    simp [TranscriptStore.appendEntry, entryIds]

theorem Rooted.pathEntries_appendItem (rooted : store.Rooted) (item : TranscriptItem)
    (providerReplay : List ProviderReplayItem) {stamp : EntryStamp}
    (unused : stamp.id ∉ entryIds store.nodes) :
    (store.appendItem item providerReplay stamp).pathEntries
        (store.appendItem item providerReplay stamp).activeLeafId =
      store.pathEntries store.activeLeafId ++
        [{ id := stamp.id
           parentId := store.activeLeafId
           timestampMs := stamp.timestampMs
           item := item
           providerReplay := providerReplay }] :=
  pathEntries_appendEntry rooted.forest unused rooted.leaf

end TranscriptStore

end PiRelay.Session
