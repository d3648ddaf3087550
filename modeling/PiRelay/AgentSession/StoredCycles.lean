import PiRelay.AgentSession.StoredForest

/-! What the restoring of stored entries accepts. Distinct ids and present parents are
checked one by one, and a cycle passes both checks. The walks of the restored store end
exactly where there is none. -/
namespace PiRelay.Session

open AgentVocab List
open Library (ParentMap)

/-- What the checks establish of the entries and the active leaf. -/
structure Accepted (entries : List TranscriptStorageNode) (activeLeafId : Option EntryId) : Prop where
  distinct : (entryIds entries).Nodup
  parents : ∀ entry ∈ entries, ∀ parentId ∈ entry.parentId, parentId ∈ entryIds entries
  leaf : ∀ leafId ∈ activeLeafId, leafId ∈ entryIds entries

/-- One of the entries names the other one as its parent. -/
def IsChild (entries : List TranscriptStorageNode) (child parent : TranscriptStorageNode) : Prop :=
  child ∈ entries ∧ parent ∈ entries ∧ child.parentId = some parent.id

/-- No entry is among its own ancestors. -/
def NoCycle (entries : List TranscriptStorageNode) : Prop :=
  ∀ entry, ¬ Relation.TransGen (IsChild entries) entry entry

namespace TranscriptStore

variable {entries : List TranscriptStorageNode} {activeLeafId : Option EntryId}
  {store : TranscriptStore}

/-- The store is read exactly from entries that the checks accept. -/
theorem fromStorageEntries_eq_ok_iff :
    fromStorageEntries entries activeLeafId = .ok store ↔
      Accepted entries activeLeafId ∧ store = { nodes := entries, activeLeafId } := by
  have parents : (entries.all fun entry =>
      entry.parentId.all fun parentId => (entries.map (·.id)).contains parentId) ↔
      ∀ entry ∈ entries, ∀ parentId ∈ entry.parentId, parentId ∈ entryIds entries := by
    simp [Option.all_eq_true, entryIds]
  have leaf : (activeLeafId.all fun leafId => (entries.map (·.id)).contains leafId) ↔
      ∀ leafId ∈ activeLeafId, leafId ∈ entryIds entries := by
    simp [Option.all_eq_true, entryIds]
  simp only [fromStorageEntries, parents, leaf]
  constructor
  · intro restored
    split at restored
    · cases restored
    · rename_i distinct
      split at restored
      · cases restored
      · rename_i present
        split at restored
        · cases restored
        · rename_i known
          exact ⟨⟨not_not.mp distinct, not_not.mp present, not_not.mp known⟩,
            (Except.ok.inj restored).symm⟩
  · intro accepted
    have distinct : (entries.map (·.id)).Nodup := accepted.1.distinct
    rw [if_neg (not_not.mpr distinct), if_neg (not_not.mpr accepted.1.parents),
      if_neg (not_not.mpr accepted.1.leaf), accepted.2]

/-- The walks of the store to its roots end. A path is what the loop of `path_entries` has
collected when it ends. -/
structure WalksEnd (store : TranscriptStore) : Prop where
  roots : ∀ entry ∈ store.nodes, ∃ path, store.parents.Ascends (some entry.id) path ∧
    path.length ≤ store.nodes.length
  paths : ∀ id, ∃ path, store.parents.Climbs id path ∧ store.pathEntries id = path.reverse ∧
    (entryIds path).Nodup
  context : ∃ path, store.parents.Climbs store.activeLeafId path ∧ (entryIds path).Nodup ∧
    store.modelContext = .fromEntries (path.reverse.map TranscriptStorageNode.contextEntry)

section

variable (distinct : (entryIds store.nodes).Nodup)
include distinct

theorem links_iff {child parent : TranscriptStorageNode} :
    store.parents.Links child parent ↔ IsChild store.nodes child parent := by
  constructor
  · intro links
    obtain ⟨⟨_, found⟩, _, isParent, foundParent⟩ := links
    obtain ⟨mem, rfl⟩ := getEntry_eq_some foundParent
    exact ⟨(getEntry_eq_some found).1, mem, isParent⟩
  · intro isChild
    obtain ⟨mem, memberParent, isParent⟩ := isChild
    exact ⟨⟨child.id, getEntry_of_mem distinct mem⟩, parent.id, isParent,
      getEntry_of_mem distinct memberParent⟩

theorem acyclic_iff : store.parents.Acyclic ↔ NoCycle store.nodes := by
  have same : store.parents.Links = IsChild store.nodes := by
    funext child parent
    exact propext (links_iff distinct)
  rw [ParentMap.Acyclic, same, NoCycle]

theorem noCycle_of_walksEnd (ends : store.WalksEnd) : NoCycle store.nodes := by
  apply (acyclic_iff distinct).mp
  apply ParentMap.acyclic_of_climbs
  intro key node _
  obtain ⟨path, climbs, -⟩ := ends.paths (some key)
  exact ⟨path, climbs⟩

end

theorem walksEnd_of_noCycle (accepted : Accepted store.nodes store.activeLeafId)
    (noCycle : NoCycle store.nodes) : store.WalksEnd := by
  have acyclic := (acyclic_iff accepted.distinct).mpr noCycle
  have listed : ∀ key node, store.parents.lookup key = some node → node ∈ store.nodes :=
    fun _ _ found => (getEntry_eq_some found).1
  have path : ∀ id, store.parents.Climbs id (store.pathEntries id).reverse ∧
      (store.pathEntries id).reverse.length ≤ store.nodes.length := by
    intro id
    rw [pathEntries, walkToRoot_eq_walk, reverse_reverse]
    exact acyclic.climbs listed id
  have distinctIds : ∀ id, (entryIds (store.pathEntries id).reverse).Nodup := by
    intro id
    exact (path id).1.names_nodup fun _ _ found => (getEntry_eq_some found).2
  have known : ∀ id ∈ entryIds store.nodes, ∃ node, store.parents.lookup id = some node := by
    intro id isKnown
    obtain ⟨node, mem, rfl⟩ := mem_map.mp isKnown
    exact ⟨node, getEntry_of_mem accepted.distinct mem⟩
  constructor
  · intro entry mem
    refine ⟨_, ParentMap.Ascends.of_climbs (path (some entry.id)).1 ?_ ?_, (path _).2⟩
    · intro start isStart
      obtain rfl := Option.mem_some_iff.mp isStart
      exact known _ (mem_map_of_mem mem)
    · intro own node found parentId isParent
      exact known parentId (accepted.parents node (listed own node found) parentId isParent)
  · intro id
    exact ⟨_, (path id).1, (reverse_reverse _).symm, distinctIds id⟩
  · refine ⟨_, (path store.activeLeafId).1, distinctIds _, ?_⟩
    rw [modelContext, reverse_reverse]

/-- The walks of a restored store end if and only if no entry is its own ancestor. -/
theorem restored_walksEnd_iff (restored : fromStorageEntries entries activeLeafId = .ok store) :
    store.WalksEnd ↔ NoCycle entries := by
  obtain ⟨accepted, rfl⟩ := fromStorageEntries_eq_ok_iff.mp restored
  constructor
  · intro ends
    exact noCycle_of_walksEnd accepted.distinct ends
  · intro noCycle
    exact walksEnd_of_noCycle accepted noCycle

def openedTurn : List TranscriptStorageNode :=
  [⟨"start", none, 1, .turnStarted 1, []⟩,
    ⟨"message", some "start", 2, .userMessage (.text "hi"), []⟩]

theorem openedTurn_walksEnd_iff :
    fromStorageEntries openedTurn (some "message") =
        .ok { nodes := openedTurn, activeLeafId := some "message" } ∧
      (({ nodes := openedTurn, activeLeafId := some "message" } : TranscriptStore).WalksEnd ↔
        NoCycle openedTurn) := by
  have restored : fromStorageEntries openedTurn (some "message") =
      .ok { nodes := openedTurn, activeLeafId := some "message" } := by decide
  exact ⟨restored, restored_walksEnd_iff restored⟩

def ownParent : TranscriptStorageNode := ⟨"a", some "a", 1, .userMessage (.text "hi"), []⟩

/-- The entry is accepted, and the walk from it does not end. -/
theorem ownParent_accepted : ¬ ∀ entries activeLeafId store,
    fromStorageEntries entries activeLeafId = .ok store → store.WalksEnd := by
  intro ends
  have restored : fromStorageEntries [ownParent] (some "a") =
      .ok { nodes := [ownParent], activeLeafId := some "a" } := by decide
  have noCycle := noCycle_of_walksEnd (by decide) (ends _ _ _ restored)
  exact noCycle ownParent (.single ⟨by decide, by decide, rfl⟩)

end TranscriptStore

end PiRelay.Session
