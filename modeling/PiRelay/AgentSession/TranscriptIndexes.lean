import Mathlib.Data.Finmap
import PiRelay.AgentSession.StoredCycles

/-! The transcript store with the indexes it keeps beside its entries. Appending updates
them one entry at a time, restoring builds them from the entries in any order, and both
give what the parents of the entries say. -/
namespace PiRelay.Session

open AgentVocab TranscriptStore List Option
open Library (ParentMap)

@[ext] structure IndexedStore where
  entriesById : Finmap fun _ : EntryId => TranscriptStorageNode := ∅
  parentById : Finmap fun _ : EntryId => Option EntryId := ∅
  childrenByParent : Finmap fun _ : Option EntryId => List EntryId := ∅
  leafIds : Finset EntryId := ∅
  insertionOrder : List EntryId := []
  activeLeafId : Option EntryId := none
deriving DecidableEq

namespace IndexedStore

variable (store : IndexedStore)

def entries : List TranscriptStorageNode :=
  store.insertionOrder.filterMap (store.entriesById.lookup ·)

def childIds (parentId : Option EntryId) : List EntryId :=
  (store.childrenByParent.lookup parentId).getD []

def containsEntry (id : EntryId) : Bool :=
  (store.entriesById.lookup id).isSome

variable (entry : TranscriptStorageNode)

/-- The indexes of an entry that both ways of adding one write alike. -/
def indexEntry : IndexedStore :=
  { store with
    parentById := store.parentById.insert entry.id entry.parentId
    childrenByParent :=
      store.childrenByParent.insert entry.parentId (store.childIds entry.parentId ++ [entry.id])
    leafIds := insert entry.id store.leafIds
    insertionOrder := store.insertionOrder ++ [entry.id]
    entriesById := store.entriesById.insert entry.id entry }

/-- The parent stops being a leaf before the new entry becomes one. -/
def appendEntry : IndexedStore :=
  let leafIds :=
    match entry.parentId with
    | some parentId => store.leafIds.erase parentId
    | none => store.leafIds
  { ({ store with leafIds } : IndexedStore).indexEntry entry with activeLeafId := some entry.id }

def appendStorageNode : IndexedStore :=
  store.appendEntry entry

def appendRootItem (item : TranscriptItem)
    (providerReplay : List ProviderReplayItem) (stamp : EntryStamp) : IndexedStore :=
  store.appendEntry
    { id := stamp.id
      parentId := none
      timestampMs := stamp.timestampMs
      item := item
      providerReplay := providerReplay }

def appendItem (item : TranscriptItem)
    (providerReplay : List ProviderReplayItem) (stamp : EntryStamp) : IndexedStore :=
  store.appendEntry
    { id := stamp.id
      parentId := store.activeLeafId
      timestampMs := stamp.timestampMs
      item := item
      providerReplay := providerReplay }

def appendTranscriptItems (store : IndexedStore) : List TranscriptItem → (Nat → EntryStamp) →
    IndexedStore
  | [], _ => store
  | item :: rest, stamps =>
    (store.appendItem item [] (stamps 0)).appendTranscriptItems rest fun draw => stamps (draw + 1)

def setActiveLeafToEntry (entryId : EntryId) : Except TranscriptStoreError IndexedStore :=
  if store.containsEntry entryId then .ok { store with activeLeafId := some entryId }
  else .error .entryNotFound

variable (entries : List TranscriptStorageNode)

variable (activeLeafId : Option EntryId)

/-- Every entry is indexed as a leaf first; then every parent that a value of the parent
index names is removed. -/
def fromTrustedEntries : IndexedStore :=
  let indexed := entries.foldl indexEntry {}
  { indexed with
    leafIds := indexed.leafIds.filter fun id => ∀ entry ∈ indexed.parentById.entries,
      entry.2 ≠ some id
    activeLeafId }

def fromStorageEntries : Except TranscriptStoreError IndexedStore :=
  let ids := entries.map (·.id)
  if ¬ ids.Nodup then .error .duplicateEntry
  else if ¬ entries.all (fun entry => entry.parentId.all fun parentId => ids.contains parentId) then
    .error .missingParent
  else if ¬ activeLeafId.all (fun leafId => ids.contains leafId) then .error .entryNotFound
  else .ok (fromTrustedEntries entries activeLeafId)

def parents : ParentMap EntryId TranscriptStorageNode where
  lookup := (store.entriesById.lookup ·)
  parent := TranscriptStorageNode.parentId

/-- The walk to the root, bounded by the number of entries. -/
def pathEntries (entryId : Option EntryId) : List TranscriptStorageNode :=
  (store.parents.walk store.insertionOrder.length entryId).reverse

def activePathEntries : List TranscriptStorageNode :=
  store.pathEntries store.activeLeafId

/-- The stores that appending and moving the active leaf lead to, from nothing or from
stored entries without a cycle. -/
inductive Reached : IndexedStore → Prop where
  | new : Reached {}
  | restored {entries : List TranscriptStorageNode} {activeLeafId : Option EntryId}
      {store : IndexedStore} (noCycle : NoCycle entries)
      (isRestored : fromStorageEntries entries activeLeafId = .ok store) : Reached store
  | appendTranscriptItems {store : IndexedStore} (reached : Reached store)
      (items : List TranscriptItem) {stamps : Nat → EntryStamp} (fresh : Fresh stamps store.entries) :
      Reached (store.appendTranscriptItems items stamps)
  | appendRootItem {store : IndexedStore} (reached : Reached store) (item : TranscriptItem)
      (providerReplay : List ProviderReplayItem) {stamp : EntryStamp}
      (unused : stamp.id ∉ entryIds store.entries) :
      Reached (store.appendRootItem item providerReplay stamp)
  | appendStorageNode {store : IndexedStore} (reached : Reached store)
      {entry : TranscriptStorageNode} (unused : entry.id ∉ entryIds store.entries)
      (parent : ∀ parentId ∈ entry.parentId, parentId ∈ entryIds store.entries) :
      Reached (store.appendStorageNode entry)
  | setActiveLeafToEntry {store after : IndexedStore} (reached : Reached store) {entryId : EntryId}
      (isSet : store.setActiveLeafToEntry entryId = .ok after) : Reached after

/-- The indexes say what the parents of the entries say, and the active leaf is an entry. -/
structure Describes (store : IndexedStore) : Prop where
  order : store.insertionOrder = entryIds store.entries
  parents : ∀ id parentId, store.parentById.lookup id = some parentId ↔
    ∃ entry ∈ store.entries, entry.id = id ∧ entry.parentId = parentId
  children : ∀ parentId ids, store.childrenByParent.lookup parentId = some ids ↔
    ids ≠ [] ∧ ids = entryIds (store.entries.filter (·.parentId == parentId))
  leaves : ∀ id, id ∈ store.leafIds ↔
    id ∈ entryIds store.entries ∧ ∀ entry ∈ store.entries, entry.parentId ≠ some id
  active : ∀ leafId ∈ store.activeLeafId, leafId ∈ entryIds store.entries

theorem mem_entries_iff {Key Value : Type} [DecidableEq Key] {map : Finmap fun _ : Key => Value}
    {key : Key} {value : Value} : ⟨key, value⟩ ∈ map.entries ↔ map.lookup key = some value := by
  induction map using Finmap.induction_on with
  | H entries =>
    rw [Finmap.lookup_toFinmap, ← mem_def, AList.mem_lookup_iff]
    exact Multiset.mem_coe

section Built

variable (nodes : List TranscriptStorageNode) (leafId : Option EntryId)

theorem built_insertionOrder : (nodes.foldl indexEntry {}).insertionOrder = entryIds nodes := by
  induction nodes using List.reverseRecOn with
  | nil => rfl
  | append_singleton _ _ ih => simp [foldl_append, ih, entryIds, indexEntry]

theorem built_entriesById (id : EntryId) :
    (nodes.foldl indexEntry {}).entriesById.lookup id =
      ({ nodes, activeLeafId := leafId } : TranscriptStore).getEntry id := by
  induction nodes using List.reverseRecOn with
  | nil => rfl
  | append_singleton _ node ih =>
    rw [foldl_append, foldl_cons, foldl_nil, indexEntry]
    by_cases same : node.id = id
    · subst same
      simp [getEntry]
    · rw [getEntry_append_of_ne same, ← ih, Finmap.lookup_insert_of_ne]
      exact Ne.symm same

theorem built_parentById (id : EntryId) :
    (nodes.foldl indexEntry {}).parentById.lookup id =
      ((nodes.foldl indexEntry {}).entriesById.lookup id).map (·.parentId) := by
  induction nodes using List.reverseRecOn with
  | nil => rfl
  | append_singleton _ node ih =>
    rw [foldl_append, foldl_cons, foldl_nil, indexEntry]
    by_cases same : id = node.id
    · subst same
      simp
    · rw [Finmap.lookup_insert_of_ne _ same, Finmap.lookup_insert_of_ne _ same, ih]

theorem built_childIds (parentId : Option EntryId) :
    (nodes.foldl indexEntry {}).childIds parentId =
      entryIds (nodes.filter (·.parentId == parentId)) := by
  induction nodes using List.reverseRecOn with
  | nil => rfl
  | append_singleton _ node ih =>
    rw [foldl_append, foldl_cons, foldl_nil, filter_append, entryIds_append, ← ih]
    by_cases same : parentId = node.parentId
    · subst same
      simp [indexEntry, childIds, entryIds]
    · have apart := beq_eq_false_iff_ne.mpr (Ne.symm same)
      simp [indexEntry, childIds, entryIds, apart, Finmap.lookup_insert_of_ne _ same]

theorem built_children_ne_nil (parentId : Option EntryId) :
    (nodes.foldl indexEntry {}).childrenByParent.lookup parentId ≠ some [] := by
  induction nodes using List.reverseRecOn with
  | nil => simp
  | append_singleton _ node ih =>
    rw [foldl_append, foldl_cons, foldl_nil, indexEntry]
    by_cases same : parentId = node.parentId
    · subst same
      simp
    · rw [Finmap.lookup_insert_of_ne _ same]
      exact ih

theorem built_leafIds : (nodes.foldl indexEntry {}).leafIds = (entryIds nodes).toFinset := by
  induction nodes using List.reverseRecOn with
  | nil => rfl
  | append_singleton _ _ ih =>
    rw [foldl_append, foldl_cons, foldl_nil, indexEntry, ih]
    simp [entryIds]

end Built

def ofStore (plain : TranscriptStore) : IndexedStore :=
  fromTrustedEntries plain.nodes plain.activeLeafId

variable {plain : TranscriptStore}

theorem ofStore_getEntry (id : EntryId) :
    (ofStore plain).entriesById.lookup id = plain.getEntry id :=
  built_entriesById plain.nodes plain.activeLeafId id

theorem ofStore_insertionOrder : (ofStore plain).insertionOrder = entryIds plain.nodes :=
  built_insertionOrder plain.nodes

theorem ofStore_parentById (id : EntryId) :
    (ofStore plain).parentById.lookup id = (plain.getEntry id).map (·.parentId) := by
  rw [← ofStore_getEntry]
  exact built_parentById plain.nodes id

theorem ofStore_childIds (parentId : Option EntryId) :
    (ofStore plain).childIds parentId = entryIds (plain.nodes.filter (·.parentId == parentId)) :=
  built_childIds plain.nodes parentId

theorem ofStore_entries (distinct : (entryIds plain.nodes).Nodup) :
    (ofStore plain).entries = plain.nodes := by
  rw [entries, ofStore_insertionOrder]
  simp only [ofStore_getEntry]
  exact entries_eq_nodes distinct

theorem ofStore_parents : (ofStore plain).parents = plain.parents := by
  rw [parents, TranscriptStore.parents]
  congr 1
  funext id
  exact ofStore_getEntry id

theorem parentById_iff (distinct : (entryIds plain.nodes).Nodup) {id : EntryId}
    {parentId : Option EntryId} :
    (ofStore plain).parentById.lookup id = some parentId ↔
      ∃ entry ∈ plain.nodes, entry.id = id ∧ entry.parentId = parentId := by
  rw [ofStore_parentById, map_eq_some_iff]
  constructor
  · intro found
    obtain ⟨entry, isEntry, isParent⟩ := found
    obtain ⟨mem, sameId⟩ := getEntry_eq_some isEntry
    exact ⟨entry, mem, sameId, isParent⟩
  · intro listed
    obtain ⟨entry, mem, rfl, isParent⟩ := listed
    exact ⟨entry, getEntry_of_mem distinct mem, isParent⟩

theorem mem_leafIds_iff (distinct : (entryIds plain.nodes).Nodup) {id : EntryId} :
    id ∈ (ofStore plain).leafIds ↔
      id ∈ entryIds plain.nodes ∧ ∀ entry ∈ plain.nodes, entry.parentId ≠ some id := by
  have kept : id ∈ (ofStore plain).leafIds ↔ id ∈ entryIds plain.nodes ∧
      ∀ entry ∈ (ofStore plain).parentById.entries, entry.2 ≠ some id := by
    show id ∈ Finset.filter _ _ ↔ _
    rw [Finset.mem_filter, built_leafIds, List.mem_toFinset]
    rfl
  rw [kept]
  apply and_congr_right
  intro _
  constructor
  · intro apart entry mem isParent
    have found := (parentById_iff distinct).mpr ⟨entry, mem, rfl, isParent⟩
    exact apart _ (mem_entries_iff.mpr found) rfl
  · intro apart entry mem isParent
    obtain ⟨child, memberChild, -, childParent⟩ :=
      (parentById_iff distinct).mp (mem_entries_iff.mp mem)
    exact apart child memberChild (childParent.trans isParent)

theorem children_iff {parentId : Option EntryId} {ids : List EntryId} :
    (ofStore plain).childrenByParent.lookup parentId = some ids ↔
      ids ≠ [] ∧ ids = entryIds (plain.nodes.filter (·.parentId == parentId)) := by
  have listed : (ofStore plain).childIds parentId =
      entryIds (plain.nodes.filter (·.parentId == parentId)) := ofStore_childIds parentId
  have notEmpty : (ofStore plain).childrenByParent.lookup parentId ≠ some [] :=
    built_children_ne_nil plain.nodes parentId
  rw [← listed, childIds]
  cases found : (ofStore plain).childrenByParent.lookup parentId with
  | none => simp
  | some =>
    rw [found] at notEmpty
    rw [getD_some, Option.some.injEq]
    constructor
    · rintro rfl
      exact ⟨fun isEmpty => notEmpty (congrArg some isEmpty), rfl⟩
    · intro same
      exact same.2.symm

theorem ofStore_describes (restored : plain.Restored) : (ofStore plain).Describes := by
  have isEntries := ofStore_entries restored.forest.distinct
  constructor
  · rw [isEntries]
    exact ofStore_insertionOrder
  · intro id parentId
    rw [isEntries]
    exact parentById_iff restored.forest.distinct
  · intro parentId ids
    rw [isEntries]
    exact children_iff
  · intro id
    rw [isEntries]
    exact mem_leafIds_iff restored.forest.distinct
  · rw [isEntries]
    exact restored.leaf

theorem fromStorageEntries_eq : fromStorageEntries entries activeLeafId =
      (TranscriptStore.fromStorageEntries entries activeLeafId).map ofStore := by
  rw [fromStorageEntries, TranscriptStore.fromStorageEntries]
  split
  · rfl
  · split
    · rfl
    · split <;> rfl

theorem fromStorageEntries_eq_ok_iff {entries : List TranscriptStorageNode}
    {activeLeafId : Option EntryId} {store : IndexedStore} :
    fromStorageEntries entries activeLeafId = .ok store ↔
      Accepted entries activeLeafId ∧ store = ofStore { nodes := entries, activeLeafId } := by
  rw [fromStorageEntries_eq]
  constructor
  · intro restored
    cases plainly : TranscriptStore.fromStorageEntries entries activeLeafId with
    | error =>
      rw [plainly] at restored
      cases restored
    | ok =>
      obtain ⟨accepted, rfl⟩ := TranscriptStore.fromStorageEntries_eq_ok_iff.mp plainly
      rw [plainly] at restored
      exact ⟨accepted, (Except.ok.inj restored).symm⟩
  · intro accepted
    rw [TranscriptStore.fromStorageEntries_eq_ok_iff.mpr ⟨accepted.1, rfl⟩, accepted.2]
    rfl

variable {node : TranscriptStorageNode}

theorem mem_leafIds_appendEntry (restored : plain.Restored)
    (unused : node.id ∉ entryIds plain.nodes)
    (parent : ∀ parentId ∈ node.parentId, parentId ∈ entryIds plain.nodes) (id : EntryId) :
    id ∈ ((ofStore plain).appendEntry node).leafIds ↔
      id ∈ entryIds (plain.nodes ++ [node]) ∧
        ∀ entry ∈ plain.nodes ++ [node], entry.parentId ≠ some id := by
  have added : id ∈ ((ofStore plain).appendEntry node).leafIds ↔
      id = node.id ∨ id ∈ (ofStore plain).leafIds ∧ node.parentId ≠ some id := by
    rw [appendEntry, indexEntry]
    cases hParent : node.parentId with
    | none => simp
    | some => simp [and_comm, eq_comm]
  have noParent : ∀ entry ∈ plain.nodes ++ [node], entry.parentId ≠ some node.id := by
    intro entry mem isParent
    rcases mem_append.mp mem with old | new
    · exact unused (restored.forest.parents entry old node.id isParent)
    · rw [mem_singleton.mp new] at isParent
      exact unused (parent node.id isParent)
  rw [added, mem_leafIds_iff restored.forest.distinct]
  by_cases same : id = node.id
  · subst same
    simp only [true_or, true_iff]
    exact ⟨by simp [entryIds], noParent⟩
  · simp [same, entryIds, or_imp, forall_and, and_assoc]

theorem ofStore_appendEntry (restored : plain.Restored) (unused : node.id ∉ entryIds plain.nodes)
    (parent : ∀ parentId ∈ node.parentId, parentId ∈ entryIds plain.nodes) :
    (ofStore plain).appendEntry node = ofStore (plain.appendEntry node) := by
  have built : (plain.nodes ++ [node]).foldl indexEntry {} =
      (plain.nodes.foldl indexEntry {}).indexEntry node := by
    rw [foldl_append, foldl_cons, foldl_nil]
  have distinct := entryIds_snoc_nodup restored.forest.distinct unused
  rw [IndexedStore.ext_iff]
  refine ⟨?_, ?_, ?_, ?_, ?_, rfl⟩
  · show _ = ((plain.nodes ++ [node]).foldl indexEntry {}).entriesById
    rw [built]
    rfl
  · show _ = ((plain.nodes ++ [node]).foldl indexEntry {}).parentById
    rw [built]
    rfl
  · show _ = ((plain.nodes ++ [node]).foldl indexEntry {}).childrenByParent
    rw [built]
    rfl
  · ext id
    rw [mem_leafIds_appendEntry restored unused parent, mem_leafIds_iff distinct]
    rfl
  · show _ = ((plain.nodes ++ [node]).foldl indexEntry {}).insertionOrder
    rw [built]
    rfl

theorem restored_of_noCycle (accepted : Accepted plain.nodes plain.activeLeafId)
    (noCycle : NoCycle plain.nodes) : plain.Restored := by
  have acyclic := (acyclic_iff accepted.distinct).mpr noCycle
  have listed : ∀ key node, plain.parents.lookup key = some node → node ∈ plain.nodes :=
    fun _ _ found => (getEntry_eq_some found).1
  refine ⟨⟨accepted.distinct, accepted.parents, ?_⟩, accepted.leaf⟩
  refine ⟨fun id => (plain.parents.walk plain.nodes.length (some id)).length, ?_⟩
  intro node mem parentId isParent
  have found := getEntry_of_mem accepted.distinct mem
  have lower := acyclic.walk_parent_lt listed found
  rw [show plain.parents.parent node = some parentId from isParent] at lower
  exact lower

theorem restored_appendEntry (restored : plain.Restored) (unused : node.id ∉ entryIds plain.nodes)
    (parent : ∀ parentId ∈ node.parentId, parentId ∈ entryIds plain.nodes) :
    (plain.appendEntry node).Restored where
  forest := restored.forest.snoc unused parent
  leaf := by
    intro leafId hLeaf
    obtain rfl := mem_some_iff.mp hLeaf
    simp [TranscriptStore.appendEntry, entryIds]

theorem ofStore_appendTranscriptItems (restored : plain.Restored) (items : List TranscriptItem)
    {stamps : Nat → EntryStamp} (fresh : Fresh stamps plain.nodes) :
    (ofStore plain).appendTranscriptItems items stamps =
      ofStore (plain.appendTranscriptItems items stamps) := by
  induction items generalizing plain stamps with
  | nil => rfl
  | cons item _ ih =>
    have appended : (ofStore plain).appendItem item [] (stamps 0) =
        ofStore (plain.appendItem item [] (stamps 0)) :=
      ofStore_appendEntry restored (fresh.unused 0) restored.leaf
    rw [appendTranscriptItems, TranscriptStore.appendTranscriptItems, appended]
    exact ih (restored.appendItem (fresh.unused 0)) (fresh.shift _ rfl)

/-- The indexes of a reached store are those of its entries. -/
theorem Reached.eq_ofStore {store : IndexedStore} (reached : Reached store) :
    ∃ plain : TranscriptStore, plain.Restored ∧ store = ofStore plain := by
  induction reached with
  | new =>
    refine ⟨{}, ⟨⟨nodup_nil, by simp, fun _ => 0, by simp⟩, by simp⟩, ?_⟩
    decide
  | restored noCycle isRestored =>
    obtain ⟨accepted, same⟩ := fromStorageEntries_eq_ok_iff.mp isRestored
    exact ⟨_, restored_of_noCycle accepted noCycle, same⟩
  | appendTranscriptItems _ items fresh ih =>
    obtain ⟨plain, restored, rfl⟩ := ih
    rw [ofStore_entries restored.forest.distinct] at fresh
    exact ⟨_, restored.appendTranscriptItems fresh, ofStore_appendTranscriptItems restored items fresh⟩
  | appendRootItem _ _ _ unused ih =>
    obtain ⟨plain, restored, rfl⟩ := ih
    rw [ofStore_entries restored.forest.distinct] at unused
    have noParent : ∀ parentId ∈ (none : Option EntryId), parentId ∈ entryIds plain.nodes := by simp
    exact ⟨_, restored_appendEntry restored unused noParent,
      ofStore_appendEntry restored unused noParent⟩
  | appendStorageNode _ unused parent ih =>
    obtain ⟨plain, restored, rfl⟩ := ih
    rw [ofStore_entries restored.forest.distinct] at unused parent
    exact ⟨_, restored_appendEntry restored unused parent,
      ofStore_appendEntry restored unused parent⟩
  | @setActiveLeafToEntry _ after _ entryId isSet ih =>
    obtain ⟨plain, restored, rfl⟩ := ih
    rw [IndexedStore.setActiveLeafToEntry] at isSet
    split at isSet
    · rename_i known
      obtain ⟨entry, found⟩ := isSome_iff_exists.mp known
      rw [ofStore_getEntry] at found
      obtain ⟨mem, rfl⟩ := getEntry_eq_some found
      refine ⟨{ plain with activeLeafId := some entry.id }, ⟨restored.forest, ?_⟩,
        (Except.ok.inj isSet).symm⟩
      intro leafId hLeaf
      obtain rfl := mem_some_iff.mp hLeaf
      exact mem_map_of_mem mem
    · cases isSet

theorem getEntry_perm {order : List TranscriptStorageNode} (perm : order.Perm plain.nodes)
    (distinct : (entryIds plain.nodes).Nodup) (id : EntryId) :
    ({ plain with nodes := order } : TranscriptStore).getEntry id = plain.getEntry id := by
  have distinctOrder : (entryIds order).Nodup := (perm.map TranscriptStorageNode.id).nodup_iff.mpr distinct
  apply Option.ext
  intro entry
  constructor
  · intro found
    obtain ⟨mem, rfl⟩ := getEntry_eq_some found
    exact getEntry_of_mem distinct (perm.mem_iff.mp mem)
  · intro found
    obtain ⟨mem, rfl⟩ := getEntry_eq_some found
    exact getEntry_of_mem distinctOrder (perm.mem_iff.mpr mem)

theorem restored_perm {order : List TranscriptStorageNode} (perm : order.Perm plain.nodes)
    (restored : plain.Restored) :
    ∃ rebuilt, fromStorageEntries order plain.activeLeafId = .ok rebuilt ∧
      rebuilt.parentById = (ofStore plain).parentById ∧
      rebuilt.leafIds = (ofStore plain).leafIds ∧
      rebuilt.activePathEntries = (ofStore plain).activePathEntries := by
  have distinct := restored.forest.distinct
  have distinctOrder : (entryIds order).Nodup := (perm.map TranscriptStorageNode.id).nodup_iff.mpr distinct
  have known : ∀ id, id ∈ entryIds order ↔ id ∈ entryIds plain.nodes :=
    fun id => (perm.map TranscriptStorageNode.id).mem_iff
  have accepted : Accepted order plain.activeLeafId := by
    refine ⟨distinctOrder, ?_, ?_⟩
    · intro entry mem parentId isParent
      exact (known parentId).mpr
        (restored.forest.parents entry (perm.mem_iff.mp mem) parentId isParent)
    · intro leafId hLeaf
      exact (known leafId).mpr (restored.leaf leafId hLeaf)
  refine ⟨ofStore { plain with nodes := order }, fromStorageEntries_eq_ok_iff.mpr ⟨accepted, rfl⟩,
    ?_, ?_, ?_⟩
  · apply Finmap.ext_lookup
    intro id
    rw [ofStore_parentById, ofStore_parentById, getEntry_perm perm distinct]
  · ext id
    rw [mem_leafIds_iff distinctOrder, mem_leafIds_iff distinct, known]
    simp only [perm.mem_iff]
  · have sameParents : ({ plain with nodes := order } : TranscriptStore).parents = plain.parents := by
      rw [TranscriptStore.parents, TranscriptStore.parents]
      congr 1
      funext id
      exact getEntry_perm perm distinct id
    have sameLength : (entryIds order).length = (entryIds plain.nodes).length := by
      rw [entryIds, entryIds, length_map, length_map, perm.length_eq]
    show pathEntries _ plain.activeLeafId = pathEntries _ plain.activeLeafId
    rw [pathEntries, pathEntries, ofStore_parents, ofStore_parents, sameParents,
      ofStore_insertionOrder, ofStore_insertionOrder, sameLength]

/-- In every store that is reached the indexes describe the entries, and restoring its entries
gives the store again, in any order up to the order of children. -/
theorem reached_indexes {store : IndexedStore} (reached : Reached store) :
    store.Describes ∧
      store.parents.Ascends store.activeLeafId store.activePathEntries.reverse ∧
      fromStorageEntries store.entries store.activeLeafId = .ok store ∧
      ∀ order, order.Perm store.entries →
        ∃ rebuilt, fromStorageEntries order store.activeLeafId = .ok rebuilt ∧
          rebuilt.parentById = store.parentById ∧ rebuilt.leafIds = store.leafIds ∧
          rebuilt.activePathEntries = store.activePathEntries := by
  obtain ⟨plain, restored, rfl⟩ := reached.eq_ofStore
  have isEntries := ofStore_entries restored.forest.distinct
  refine ⟨ofStore_describes restored, ?_, ?_, ?_⟩
  · have path : (ofStore plain).activePathEntries = plain.pathEntries plain.activeLeafId := by
      rw [TranscriptStore.pathEntries, walkToRoot_eq_walk, activePathEntries,
        pathEntries, ofStore_parents, ofStore_insertionOrder, entryIds, length_map]
      rfl
    rw [ofStore_parents, path]
    exact restored.ascends.1
  · rw [isEntries]
    exact fromStorageEntries_eq_ok_iff.mpr
      ⟨⟨restored.forest.distinct, restored.forest.parents, restored.leaf⟩, rfl⟩
  · intro order perm
    rw [isEntries] at perm
    exact restored_perm perm restored

/-- A started turn, and two messages below it. -/
def branched : IndexedStore :=
  let started := ({} : IndexedStore).appendRootItem (.turnStarted 1) [] ⟨"start", 1⟩
  (started.appendStorageNode ⟨"one", some "start", 2, .userMessage (.text "one"), []⟩)
    |>.appendStorageNode ⟨"other", some "start", 3, .userMessage (.text "other"), []⟩

theorem branched_reached : Reached branched := by
  apply Reached.appendStorageNode
  · apply Reached.appendStorageNode
    · exact .appendRootItem .new (.turnStarted 1) [] (by decide)
    · decide
    · decide
  · decide
  · decide

theorem branched_indexes :
    branched.Describes ∧
      branched.parents.Ascends branched.activeLeafId branched.activePathEntries.reverse ∧
      fromStorageEntries branched.entries branched.activeLeafId = .ok branched ∧
      ∀ order, order.Perm branched.entries →
        ∃ rebuilt, fromStorageEntries order branched.activeLeafId = .ok rebuilt ∧
          rebuilt.parentById = branched.parentById ∧ rebuilt.leafIds = branched.leafIds ∧
          rebuilt.activePathEntries = branched.activePathEntries :=
  reached_indexes branched_reached

end IndexedStore

end PiRelay.Session
