import Mathlib.Data.List.Nodup
import PiRelay.AgentSession.Runs

/-! What appending does to a transcript store. Entries are only ever added, each
under an id no entry has, below an entry that is already there. So an entry keeps
its id for good, and the path of an entry to the root, once there, does not
change. -/
namespace PiRelay.Session

open AgentVocab AgentCore TranscriptStore List Option

def entryIds (nodes : List TranscriptStorageNode) : List EntryId := nodes.map (·.id)

@[simp] theorem entryIds_append (first second : List TranscriptStorageNode) :
    entryIds (first ++ second) = entryIds first ++ entryIds second := by
  simp [entryIds]

variable {nodes : List TranscriptStorageNode}

theorem entryIds_snoc_nodup {node : TranscriptStorageNode} (nodup : (entryIds nodes).Nodup)
    (unused : node.id ∉ entryIds nodes) : (entryIds (nodes ++ [node])).Nodup := by
  rw [entryIds_append, nodup_append']
  exact ⟨nodup, nodup_singleton _, by simpa [entryIds] using unused⟩

/-- The ids still to be drawn: no two are equal and none is taken. -/
structure Fresh (stamps : Nat → EntryStamp) (nodes : List TranscriptStorageNode) : Prop where
  distinct : Function.Injective fun draw => (stamps draw).id
  unused : ∀ draw, (stamps draw).id ∉ entryIds nodes

def appendedNodes (leafId : Option EntryId) : List TranscriptItem → (Nat → EntryStamp) →
    List TranscriptStorageNode
  | [], _ => []
  | item :: rest, stamps =>
    { id := (stamps 0).id
      parentId := leafId
      timestampMs := (stamps 0).timestampMs
      item := item
      providerReplay := [] } ::
      appendedNodes (some (stamps 0).id) rest fun draw => stamps (draw + 1)

theorem appendedNodes_items (leafId : Option EntryId) (items : List TranscriptItem)
    (stamps : Nat → EntryStamp) : (appendedNodes leafId items stamps).map (·.item) = items := by
  induction items generalizing leafId stamps with
  | nil => rfl
  | cons _ _ ih => simp [appendedNodes, ih]

variable {items : List TranscriptItem} {stamps : Nat → EntryStamp}

theorem appendedNodes_drawn {leafId : Option EntryId} {id : EntryId}
    (mem : id ∈ entryIds (appendedNodes leafId items stamps)) : ∃ draw, id = (stamps draw).id := by
  induction items generalizing leafId stamps with
  | nil => cases mem
  | cons _ _ ih =>
    rcases mem_cons.mp mem with first | later
    · exact ⟨0, first⟩
    · obtain ⟨draw, drawn⟩ := ih later
      exact ⟨draw + 1, drawn⟩

namespace TranscriptStore

theorem appendTranscriptItems_nodes (store : TranscriptStore) (items : List TranscriptItem)
    (stamps : Nat → EntryStamp) :
    (store.appendTranscriptItems items stamps).nodes =
      store.nodes ++ appendedNodes store.activeLeafId items stamps := by
  induction items generalizing store stamps with
  | nil => simp [appendTranscriptItems, appendedNodes]
  | cons _ _ ih =>
    rw [appendTranscriptItems, ih]
    simp [appendItem, appendEntry, appendedNodes]

end TranscriptStore

namespace Fresh

variable {stamps others : Nat → EntryStamp} {nodes : List TranscriptStorageNode}

theorem shift (fresh : Fresh stamps nodes) (node : TranscriptStorageNode)
    (first : node.id = (stamps 0).id) :
    Fresh (fun draw => stamps (draw + 1)) (nodes ++ [node]) where
  distinct := by
    intro draw other same
    have := fresh.distinct same
    omega
  unused := by
    intro draw taken
    rw [entryIds_append] at taken
    rcases Library.mem_concat.mp taken with old | new
    · exact fresh.unused _ old
    · have same : (stamps (draw + 1)).id = (stamps 0).id := new.trans first
      have := fresh.distinct same
      omega

theorem append_nodup (fresh : Fresh stamps nodes) (nodup : (entryIds nodes).Nodup)
    (leafId : Option EntryId) (items : List TranscriptItem) :
    (entryIds (nodes ++ appendedNodes leafId items stamps)).Nodup := by
  induction items generalizing nodes leafId stamps with
  | nil => simpa [appendedNodes] using nodup
  | cons _ _ ih =>
    rw [appendedNodes, append_cons]
    exact ih (fresh.shift _ rfl) (entryIds_snoc_nodup nodup (fresh.unused 0)) _

theorem append_other (fresh : Fresh others nodes)
    (apart : ∀ draw other, (stamps draw).id ≠ (others other).id) (leafId : Option EntryId)
    (items : List TranscriptItem) :
    Fresh others (nodes ++ appendedNodes leafId items stamps) where
  distinct := fresh.distinct
  unused := by
    intro draw taken
    rw [entryIds_append] at taken
    rcases mem_append.mp taken with old | new
    · exact fresh.unused draw old
    · obtain ⟨other, drawn⟩ := appendedNodes_drawn new
      exact apart other draw drawn.symm

end Fresh

/-- Ids longer than those in use, each draw a longer one. -/
def stampsFrom (used draw : Nat) : EntryStamp where
  id := String.ofList (List.replicate (used + draw) 'a')
  timestampMs := 0

theorem stampsFrom_fresh {used : Nat} (shorter : (entryIds nodes).all (·.toList.length < used)) :
    Fresh (stampsFrom used) nodes where
  distinct := by
    intro draw other same
    have sameLength := congrArg (fun id : String => id.toList.length) same
    simp only [stampsFrom, String.toList_ofList, length_replicate] at sameLength
    omega
  unused := by
    intro draw taken
    have lower := all_eq_true.mp shorter _ taken
    rw [stampsFrom, String.toList_ofList, length_replicate, decide_eq_true_eq] at lower
    omega

theorem find?_of_nodup (nodup : (entryIds nodes).Nodup) {node : TranscriptStorageNode}
    (mem : node ∈ nodes) : nodes.find? (·.id == node.id) = some node := by
  induction nodes with
  | nil => cases mem
  | cons first rest ih =>
    obtain ⟨apart, nodupRest⟩ := nodup_cons.mp nodup
    rcases mem_cons.mp mem with rfl | later
    · simp
    · have different : first.id ≠ node.id := by
        intro same
        apply apart
        show first.id ∈ entryIds rest
        rw [same]
        exact mem_map_of_mem later
      rw [find?_cons_of_neg (by simpa using different)]
      exact ih nodupRest later

namespace TranscriptStore

variable {store : TranscriptStore}
variable {node : TranscriptStorageNode}

section

variable (nodup : (entryIds store.nodes).Nodup)
include nodup

theorem getEntry_of_mem (mem : node ∈ store.nodes) : store.getEntry node.id = some node := by
  apply find?_of_nodup
  · rw [entryIds, map_reverse]
    exact nodup_reverse.mpr nodup
  · exact mem_reverse.mpr mem

theorem filterMap_getEntry {some : List TranscriptStorageNode}
    (members : ∀ node ∈ some, node ∈ store.nodes) :
    (entryIds some).filterMap store.getEntry = some := by
  induction some with
  | nil => rfl
  | cons node _ ih =>
    rw [entryIds, map_cons, filterMap_cons_some (getEntry_of_mem nodup (members node (.head _))),
      ← entryIds, ih (forall_mem_cons.mp members).2]

theorem entries_eq_nodes : store.entries = store.nodes :=
  filterMap_getEntry nodup fun _ mem => mem

end

theorem getEntry_eq_some {id : EntryId} (found : store.getEntry id = some node) :
    node ∈ store.nodes ∧ node.id = id := by
  have matched := find?_some found
  exact ⟨mem_reverse.mp (mem_of_find?_eq_some found), by simpa using matched⟩

theorem getEntry_append_of_ne {id : EntryId} {leafId after : Option EntryId}
    {nodes : List TranscriptStorageNode} (other : node.id ≠ id) :
    ({ nodes := nodes ++ [node], activeLeafId := after } : TranscriptStore).getEntry id =
      ({ nodes, activeLeafId := leafId } : TranscriptStore).getEntry id := by
  simp [getEntry, other]

end TranscriptStore

/-- The entries grew one by one, each under a new id and below an earlier entry. -/
inductive Forest : List TranscriptStorageNode → Prop where
  | nil : Forest []
  | snoc {nodes : List TranscriptStorageNode} {node : TranscriptStorageNode}
      (forest : Forest nodes) (unused : node.id ∉ entryIds nodes)
      (parent : ∀ parentId ∈ node.parentId, parentId ∈ entryIds nodes) : Forest (nodes ++ [node])

namespace Forest

variable {nodes : List TranscriptStorageNode} {leafId after : Option EntryId}

theorem nodup (forest : Forest nodes) : (entryIds nodes).Nodup := by
  induction forest with
  | nil => exact nodup_nil
  | snoc _ unused _ ih => exact entryIds_snoc_nodup ih unused

variable {node : TranscriptStorageNode}

section

variable (forest : Forest nodes)
include forest

theorem parent_mem (mem : node ∈ nodes) {parentId : EntryId}
    (hParent : node.parentId = some parentId) : parentId ∈ entryIds nodes := by
  induction forest with
  | nil => cases mem
  | snoc _ _ parent ih =>
    rw [entryIds_append]
    apply mem_append_left
    rcases Library.mem_concat.mp mem with old | rfl
    · exact ih old
    · exact parent parentId hParent

theorem walkToRoot_snoc (unused : node.id ∉ entryIds nodes) (fuel : Nat) {id : Option EntryId}
    (known : ∀ entryId ∈ id, entryId ∈ entryIds nodes) :
    ({ nodes := nodes ++ [node], activeLeafId := after } : TranscriptStore).walkToRoot fuel id =
      ({ nodes, activeLeafId := leafId } : TranscriptStore).walkToRoot fuel id := by
  induction fuel generalizing id with
  | zero => rfl
  | succ _ ih =>
    cases id with
    | none => rfl
    | some entryId =>
      have other : node.id ≠ entryId := fun same => unused (same ▸ known entryId rfl)
      rw [walkToRoot, walkToRoot, getEntry_append_of_ne other]
      cases found : ({ nodes, activeLeafId := leafId } : TranscriptStore).getEntry entryId with
      | none => rfl
      | some entry =>
        have mem := (getEntry_eq_some found).1
        exact congrArg (entry :: ·) (ih fun parentId hParent =>
          forest.parent_mem mem hParent)

/-- A walk with enough fuel does not depend on it. -/
theorem walkToRoot_fuel {fuel : Nat} (enough : nodes.length ≤ fuel) (id : Option EntryId) :
    ({ nodes, activeLeafId := leafId } : TranscriptStore).walkToRoot fuel id =
      ({ nodes, activeLeafId := leafId } : TranscriptStore).walkToRoot nodes.length id := by
  induction forest generalizing fuel id with
  | nil => cases fuel <;> cases id <;> rfl
  | @snoc nodes node forest unused parent ih =>
    rw [length_append, length_singleton] at enough ⊢
    obtain ⟨less, rfl⟩ : ∃ less, fuel = less + 1 := ⟨fuel - 1, by omega⟩
    have within : nodes.length ≤ less := by omega
    cases id with
    | none => rfl
    | some entryId =>
      by_cases old : entryId ∈ entryIds nodes
      · have known : ∀ other ∈ some entryId, other ∈ entryIds nodes := by
          intro other hOther
          obtain rfl := mem_some_iff.mp hOther
          exact old
        rw [forest.walkToRoot_snoc unused _ known, forest.walkToRoot_snoc unused _ known,
          ih (by omega), ← ih (Nat.le_succ _)]
      · rw [walkToRoot, walkToRoot]
        cases found : ({ nodes := nodes ++ [node], activeLeafId := leafId } :
            TranscriptStore).getEntry entryId with
        | none => rfl
        | some entry =>
          obtain ⟨mem, hId⟩ := getEntry_eq_some found
          have new : entry = node := by
            rcases Library.mem_concat.mp mem with hOld | hNew
            · exact absurd (hId ▸ mem_map_of_mem hOld) old
            · exact hNew
          subst new
          simp only
          rw [forest.walkToRoot_snoc unused _ parent, forest.walkToRoot_snoc unused _ parent,
            ih within]

theorem modelContext_snoc (unused : node.id ∉ entryIds nodes)
    (known : ∀ entryId ∈ leafId, entryId ∈ entryIds nodes) :
    ({ nodes := nodes ++ [node], activeLeafId := leafId } : TranscriptStore).modelContext =
      ({ nodes, activeLeafId := leafId } : TranscriptStore).modelContext := by
  simp only [modelContext, pathEntries]
  rw [forest.walkToRoot_snoc unused _ known, forest.walkToRoot_fuel (by simp) leafId]

end

end Forest

namespace TranscriptStore

def contextAt (store : TranscriptStore) (leafId : Option EntryId) : ModelContext :=
  ({ store with activeLeafId := leafId } : TranscriptStore).modelContext

/-- The store grew from nothing and its active leaf is one of its entries. -/
structure Rooted (store : TranscriptStore) : Prop where
  forest : Forest store.nodes
  leaf : ∀ leafId ∈ store.activeLeafId, leafId ∈ entryIds store.nodes

namespace Rooted

variable {store : TranscriptStore} {leafId : Option EntryId}

section

variable (rooted : store.Rooted)
include rooted

theorem appendItem (item : TranscriptItem) (providerReplay : List ProviderReplayItem)
    {stamp : EntryStamp} (unused : stamp.id ∉ entryIds store.nodes) :
    (store.appendItem item providerReplay stamp).Rooted where
  forest := .snoc rooted.forest unused rooted.leaf
  leaf := by
    intro leafId hLeaf
    obtain rfl := mem_some_iff.mp hLeaf
    simp [TranscriptStore.appendItem, appendEntry, entryIds]

theorem appendTranscriptItems
    (fresh : Fresh stamps store.nodes) : (store.appendTranscriptItems items stamps).Rooted := by
  induction items generalizing store stamps with
  | nil => exact rooted
  | cons item _ ih => exact ih (rooted.appendItem item [] (fresh.unused 0)) (fresh.shift _ rfl)

section

variable (known : ∀ entryId ∈ leafId, entryId ∈ entryIds store.nodes)
include known

theorem contextAt_appendItem (item : TranscriptItem) (providerReplay : List ProviderReplayItem)
    {stamp : EntryStamp} (unused : stamp.id ∉ entryIds store.nodes) :
    (store.appendItem item providerReplay stamp).contextAt leafId = store.contextAt leafId :=
  rooted.forest.modelContext_snoc unused known

theorem contextAt_appendTranscriptItems (fresh : Fresh stamps store.nodes) :
    (store.appendTranscriptItems items stamps).contextAt leafId = store.contextAt leafId := by
  induction items generalizing store stamps with
  | nil => rfl
  | cons item _ ih =>
    have still : ∀ entryId ∈ leafId,
        entryId ∈ entryIds (store.appendItem item [] (stamps 0)).nodes := by
      intro entryId hEntry
      rw [TranscriptStore.appendItem, appendEntry, entryIds_append]
      exact mem_append_left _ (known entryId hEntry)
    rw [TranscriptStore.appendTranscriptItems,
      ih (rooted.appendItem item [] (fresh.unused 0)) still (fresh.shift _ rfl),
      rooted.contextAt_appendItem known item [] (fresh.unused 0)]

end

end

end Rooted

end TranscriptStore

end PiRelay.Session
