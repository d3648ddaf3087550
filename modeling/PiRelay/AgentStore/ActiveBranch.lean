import PiRelay.AgentSession.AppendedEntries
import PiRelay.AgentStore.Delegations
import PiRelay.Library.ParentWalk

/-! The branch of a session that is shown. It goes from the active leaf up to a root,
and where a compaction has cut the transcript it goes on with what was compacted. -/
namespace PiRelay.Store

open AgentVocab Session List
open Library (ParentMap)

/-- The parent that is shown: a compaction stands below the leaf it has compacted. -/
def displayParentId (entry : TranscriptStorageNode) : Option EntryId :=
  match entry.item with
  | .compactionSummary summary => some summary.sourceLeafId
  | _ => entry.parentId

variable (entries : List TranscriptStorageNode)

def findEntry (id : EntryId) : Option TranscriptStorageNode :=
  entries.find? (·.id == id)

def displayTree : ParentMap EntryId TranscriptStorageNode where
  lookup := findEntry entries
  parent := displayParentId

/-- A branch from its root to its leaf. -/
structure HistoryTree where
  sessionId : String
  activeLeafId : Option EntryId
  entries : List TranscriptStorageNode
deriving DecidableEq

/-- The path from a leaf up to a root. A path that goes round is refused; it is one
that is longer than the table. -/
def branchToRoot (leafId : Option EntryId) : Except String (List TranscriptStorageNode) :=
  let path := (displayTree entries).walk (entries.length + 1) leafId
  if entries.length < path.length then .error "transcript ancestry contains a cycle"
  else .ok path

def SessionRow.activeBranch (session : SessionRow) : Except String HistoryTree :=
  (branchToRoot session.entries session.activeLeafId).map fun path =>
    { sessionId := session.id
      activeLeafId := session.activeLeafId
      entries := path.reverse }

def SessionRow.endsFailed (session : SessionRow) : Bool :=
  match session.activeLeafId.bind (findEntry session.entries) with
  | none => false
  | some leaf =>
    match leaf.item with
    | .turnFinished _ outcome => outcome != .graceful
    | _ => false

variable {entries : List TranscriptStorageNode} {id : EntryId} {entry : TranscriptStorageNode}

theorem climbs_of_branchToRoot {path : List TranscriptStorageNode} {leafId : Option EntryId}
    (read : branchToRoot entries leafId = .ok path) : (displayTree entries).Climbs leafId path := by
  rw [branchToRoot] at read
  split at read
  · cases read
  · rename_i short
    cases read
    apply ParentMap.Climbs.of_walk
    omega

theorem branchToRoot_of_climbs {path : List TranscriptStorageNode} {leafId : Option EntryId}
    (climbs : (displayTree entries).Climbs leafId path) (listed : ∀ entry ∈ path, entry ∈ entries) :
    branchToRoot entries leafId = .ok path := by
  have short := climbs.length_le listed
  rw [branchToRoot, climbs.walk_eq (Nat.le_succ_of_le short)]
  exact if_neg (Nat.not_lt.mpr short)

theorem findEntry_id (found : findEntry entries id = some entry) : entry.id = id := by
  simpa using find?_some found

theorem findEntry_mem (found : findEntry entries id = some entry) : entry ∈ entries :=
  mem_of_find?_eq_some found

theorem findEntry_of_mem (distinct : (entryIds entries).Nodup) (mem : entry ∈ entries) :
    findEntry entries entry.id = some entry := by
  induction entries with
  | nil => cases mem
  | cons first rest ih =>
    obtain ⟨unused, restDistinct⟩ := nodup_cons.mp distinct
    rw [findEntry, find?_cons]
    rcases mem_cons.mp mem with rfl | later
    · simp
    · have apart : (first.id == entry.id) = false := by
        rw [beq_eq_false_iff_ne]
        intro same
        apply unused
        show first.id ∈ entryIds rest
        rw [same]
        exact mem_map_of_mem later
      rw [apart]
      exact ih restDistinct later

theorem findEntry_append {stored : List TranscriptStorageNode} (unused : id ∉ entryIds entries) :
    findEntry (stored ++ entries) id = findEntry stored id := by
  have absent : entries.find? (·.id == id) = none := by
    rw [find?_eq_none]
    intro entry mem same
    exact unused (eq_of_beq same ▸ mem_map_of_mem mem)
  rw [findEntry, find?_append, absent, Option.or_none]
  rfl

theorem findEntry_filter {ids : List EntryId}
    (kept : ∀ entry, findEntry entries id = some entry → id ∈ ids) :
    findEntry (entries.filter fun entry => ids.contains entry.id) id = findEntry entries id := by
  cases found : findEntry entries id with
  | none =>
    rw [findEntry, find?_eq_none] at found ⊢
    intro entry mem
    exact found entry (mem_filter.mp mem).1
  | some entry =>
    have listed := kept entry found
    rw [← found, findEntry, find?_filter]
    apply congrArg (entries.find? ·)
    funext other
    by_cases same : other.id = id
    · simp [same, listed]
    · simp [same]

theorem walk_of_leaf {leafId : EntryId} {leaf : TranscriptStorageNode}
    (found : findEntry entries leafId = some leaf) :
    (displayTree entries).walk (entries.length + 1) (some leafId) =
      leaf :: (displayTree entries).walk entries.length (displayParentId leaf) := by
  have lookup : (displayTree entries).lookup leafId = some leaf := found
  rw [ParentMap.walk, lookup]
  rfl

theorem walk_of_missing {leafId : EntryId} (missing : findEntry entries leafId = none) :
    (displayTree entries).walk (entries.length + 1) (some leafId) = [] := by
  have lookup : (displayTree entries).lookup leafId = none := missing
  rw [ParentMap.walk, lookup]

end PiRelay.Store
