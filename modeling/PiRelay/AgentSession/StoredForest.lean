import PiRelay.AgentSession.AppendedEntries
import PiRelay.Library.ParentWalk

/-! Stored entries in any order. What a stored transcript promises is only that ids
are distinct, that every parent is there, and that no entry is above itself. Then
a path has room in the entries, and appending to the active leaf extends its path. -/
namespace PiRelay.Session

open AgentVocab AgentCore List Option
open Library (ParentMap)

structure StoredForest (nodes : List TranscriptStorageNode) : Prop where
  distinct : (entryIds nodes).Nodup
  parents : ∀ node ∈ nodes, ∀ parentId ∈ node.parentId, parentId ∈ entryIds nodes
  acyclic : ∃ rank : EntryId → Nat, ∀ node ∈ nodes, ∀ parentId ∈ node.parentId,
    rank parentId < rank node.id

namespace StoredForest

variable {nodes : List TranscriptStorageNode}

theorem snoc (forest : StoredForest nodes) {node : TranscriptStorageNode}
    (unused : node.id ∉ entryIds nodes)
    (parent : ∀ parentId ∈ node.parentId, parentId ∈ entryIds nodes) :
    StoredForest (nodes ++ [node]) := by
  obtain ⟨rank, falls⟩ := forest.acyclic
  refine
    { distinct := entryIds_snoc_nodup forest.distinct unused
      parents := ?_
      acyclic := ⟨fun id => if id = node.id then (node.parentId.map rank).getD 0 + 1 else rank id, ?_⟩ }
  · intro other mem parentId hParent
    rw [entryIds_append]
    apply mem_append_left
    rcases Library.mem_concat.mp mem with old | rfl
    · exact forest.parents other old parentId hParent
    · exact parent parentId hParent
  · intro other mem parentId hParent
    beta_reduce
    rcases mem_append.mp mem with old | new
    · have known := forest.parents other old parentId hParent
      have parentOther : parentId ≠ node.id := fun same => unused (same ▸ known)
      have selfOther : other.id ≠ node.id := fun same => unused (same ▸ mem_map_of_mem old)
      rw [if_neg parentOther, if_neg selfOther]
      exact falls other old parentId hParent
    · rw [mem_singleton.mp new] at hParent ⊢
      have parentOther : parentId ≠ node.id := fun same => unused (same ▸ parent parentId hParent)
      rw [if_neg parentOther, if_pos rfl, mem_def.mp hParent]
      exact Nat.lt_succ_self _

end StoredForest

theorem Forest.stored {nodes : List TranscriptStorageNode} (forest : Forest nodes) :
    StoredForest nodes := by
  induction forest with
  | nil =>
    exact
      { distinct := nodup_nil
        parents := by simp
        acyclic := ⟨fun _ => 0, by simp⟩ }
  | snoc _ unused parent ih => exact ih.snoc unused parent

namespace TranscriptStore

def parents (store : TranscriptStore) : ParentMap EntryId TranscriptStorageNode where
  lookup := store.getEntry
  parent := TranscriptStorageNode.parentId

theorem walkToRoot_eq_walk (store : TranscriptStore) (fuel : Nat) (id : Option EntryId) :
    store.walkToRoot fuel id = store.parents.walk fuel id := by
  induction fuel generalizing id with
  | zero => rfl
  | succ _ ih =>
    cases id with
    | none => rfl
    | some entryId =>
      have lookup : store.parents.lookup entryId = store.getEntry entryId := rfl
      rw [walkToRoot, ParentMap.walk, lookup]
      cases store.getEntry entryId with
      | none => rfl
      | some entry => exact congrArg (entry :: ·) (ih entry.parentId)

theorem modelContext_items (store : TranscriptStore) :
    store.modelContext.items = (store.pathEntries store.activeLeafId).map (·.item) := by
  simp [modelContext, ModelContext.fromEntries, TranscriptStorageNode.contextEntry,
    Function.comp_def]

/-- The entries form a forest, and the active leaf is one of them. -/
structure Restored (store : TranscriptStore) : Prop where
  forest : StoredForest store.nodes
  leaf : ∀ leafId ∈ store.activeLeafId, leafId ∈ entryIds store.nodes

theorem Rooted.restored {store : TranscriptStore} (rooted : store.Rooted) : store.Restored :=
  ⟨rooted.forest.stored, rooted.leaf⟩

namespace Restored

variable {store : TranscriptStore}

section

variable (restored : store.Restored)
include restored

theorem getEntry_of_known {id : EntryId} (known : id ∈ entryIds store.nodes) :
    ∃ node, store.getEntry id = some node := by
  obtain ⟨node, mem, rfl⟩ := mem_map.mp known
  exact ⟨node, getEntry_of_mem restored.forest.distinct mem⟩

theorem ranked : ∃ rank, store.parents.Ranked store.nodes rank := by
  obtain ⟨rank, falls⟩ := restored.forest.acyclic
  refine ⟨fun node => rank node.id, ?_, ?_⟩
  · intro id node found
    exact (getEntry_eq_some found).1
  · intro node mem parentId hParent
    obtain ⟨above, found⟩ :=
      restored.getEntry_of_known (restored.forest.parents node mem parentId hParent)
    have lower := falls node mem parentId hParent
    refine ⟨above, found, ?_⟩
    rw [(getEntry_eq_some found).2]
    exact lower

theorem ascends :
    store.parents.Ascends store.activeLeafId (store.pathEntries store.activeLeafId).reverse ∧
      (store.pathEntries store.activeLeafId).length ≤ store.nodes.length := by
  obtain ⟨_, ranked⟩ := restored.ranked
  obtain ⟨ascends, short⟩ := ranked.walk_ascends
    fun leafId hLeaf => restored.getEntry_of_known (restored.leaf leafId hLeaf)
  rw [pathEntries, walkToRoot_eq_walk, reverse_reverse, length_reverse]
  exact ⟨ascends, short⟩

end

variable {item : TranscriptItem} {providerReplay : List ProviderReplayItem} {stamp : EntryStamp}

theorem appendItem (restored : store.Restored) (unused : stamp.id ∉ entryIds store.nodes) :
    (store.appendItem item providerReplay stamp).Restored where
  forest := restored.forest.snoc unused restored.leaf
  leaf := by
    intro leafId hLeaf
    obtain rfl := mem_some_iff.mp hLeaf
    simp [TranscriptStore.appendItem, appendEntry, entryIds]

/-- An appended item is the new leaf below the old path. -/
theorem pathEntries_appendItem (restored : store.Restored)
    (unused : stamp.id ∉ entryIds store.nodes) :
    (store.appendItem item providerReplay stamp).pathEntries (some stamp.id) =
      store.pathEntries store.activeLeafId ++
        [{ id := stamp.id
           parentId := store.activeLeafId
           timestampMs := stamp.timestampMs
           item := item
           providerReplay := providerReplay }] := by
  generalize hNode : TranscriptStorageNode.mk stamp.id store.activeLeafId stamp.timestampMs item
    providerReplay = node
  have hAppended : store.appendItem item providerReplay stamp = store.appendEntry node := by
    rw [← hNode, TranscriptStore.appendItem]
  have hId : node.id = stamp.id := by rw [← hNode]
  have hParent : node.parentId = store.activeLeafId := by rw [← hNode]
  obtain ⟨ascends, short⟩ := restored.ascends
  have kept : ∀ id entry, store.getEntry id = some entry →
      (store.appendEntry node).getEntry id = some entry := by
    intro id entry found
    obtain ⟨mem, sameId⟩ := getEntry_eq_some found
    have other : node.id ≠ id := by
      intro same
      apply unused
      rw [← hId, same, ← sameId]
      exact mem_map_of_mem mem
    exact (getEntry_append_of_ne other).trans found
  have distinct : (entryIds (store.appendEntry node).nodes).Nodup :=
    entryIds_snoc_nodup restored.forest.distinct (hId ▸ unused)
  have foundNode : (store.appendEntry node).getEntry node.id = some node := by
    apply getEntry_of_mem distinct
    exact mem_append_right _ (mem_singleton_self node)
  have path : (store.appendEntry node).parents.Ascends (some node.id)
      (node :: (store.pathEntries store.activeLeafId).reverse) := by
    apply ParentMap.Ascends.node foundNode
    show (store.appendEntry node).parents.Ascends node.parentId _
    rw [hParent]
    exact ascends.transfer rfl kept
  have enough : (node :: (store.pathEntries store.activeLeafId).reverse).length ≤
      (store.appendEntry node).nodes.length := by
    rw [appendEntry, length_cons, length_reverse, length_append, length_singleton]
    exact Nat.succ_le_succ short
  rw [hAppended, ← hId, pathEntries, walkToRoot_eq_walk, path.walk_eq enough, reverse_cons,
    reverse_reverse]

variable {stamps : Nat → EntryStamp}

section

variable (restored : store.Restored)
include restored

theorem appendTranscriptItems {items : List TranscriptItem} (fresh : Fresh stamps store.nodes) :
    (store.appendTranscriptItems items stamps).Restored := by
  induction items generalizing store stamps with
  | nil => exact restored
  | cons _ _ ih => exact ih (restored.appendItem (fresh.unused 0)) (fresh.shift _ rfl)

theorem pathEntries_appendTranscriptItems (items : List TranscriptItem)
    (fresh : Fresh stamps store.nodes) :
    (store.appendTranscriptItems items stamps).pathEntries
        (store.appendTranscriptItems items stamps).activeLeafId =
      store.pathEntries store.activeLeafId ++ appendedNodes store.activeLeafId items stamps := by
  induction items generalizing store stamps with
  | nil => simp [TranscriptStore.appendTranscriptItems, appendedNodes]
  | cons item _ ih =>
    rw [TranscriptStore.appendTranscriptItems,
      ih (restored.appendItem (fresh.unused 0)) (fresh.shift _ rfl)]
    show (store.appendItem item [] (stamps 0)).pathEntries (some (stamps 0).id) ++ _ = _
    rw [restored.pathEntries_appendItem (fresh.unused 0), append_assoc]
    rfl

theorem modelContext_appendItem (unused : stamp.id ∉ entryIds store.nodes) :
    (store.appendItem item providerReplay stamp).modelContext.items =
      store.modelContext.items ++ [item] := by
  rw [modelContext_items, modelContext_items]
  show ((store.appendItem item providerReplay stamp).pathEntries (some stamp.id)).map (·.item) = _
  rw [restored.pathEntries_appendItem unused, map_append]
  rfl

theorem modelContext_appendTranscriptItems (items : List TranscriptItem)
    (fresh : Fresh stamps store.nodes) :
    (store.appendTranscriptItems items stamps).modelContext.items =
      store.modelContext.items ++ items := by
  rw [modelContext_items, modelContext_items,
    restored.pathEntries_appendTranscriptItems items fresh, map_append, appendedNodes_items]

end

end Restored

end TranscriptStore

end PiRelay.Session
