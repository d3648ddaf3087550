import PiRelay.AgentStore.ActiveBranch

/-! A compaction job, and what a transcript gets when it completes: a new root that
stands for the branch up to the source leaf, and below it what the open turn goes on
with. -/
namespace PiRelay.Store

open AgentVocab AgentCore Session

/-- What a compaction cuts: a transcript at a turn boundary, or one in the middle of a
turn, whose model action waits for it. -/
inductive CompactionScope where
  | boundary (sourceLeafId : EntryId)
  | midTurn (sourceLeafId : EntryId) (turnId : TurnId) (blockedModelActionId : ActionId)
      (blockedModelActionRowId blockedModelAttemptId : String)
deriving DecidableEq

inductive CompactionTrigger where
  | manual
  | auto (reason : String)
deriving DecidableEq

def CompactionTrigger.reason : CompactionTrigger → Option String
  | .manual => none
  | .auto reason => some reason

structure StoredCompactionJob where
  actionRowId : String
  attemptId : String
  sourceSessionId : String
  sourceLeafId : EntryId
  tokensBefore : Option Nat
  lastTurnId : TurnId
  turnStartedAtMs : Option Nat
  trigger : CompactionTrigger
  scope : CompactionScope
deriving DecidableEq

structure CompactionCompletion where
  summary : String
  providerReplay : List ProviderReplayItem
  continuationSuffix : List ModelContextEntry

def suffixEntries (parentId : EntryId) (timestampMs : Nat) (ids : Nat → EntryId) :
    List ModelContextEntry → List TranscriptStorageNode
  | [] => []
  | suffix :: rest =>
    { id := ids 0
      parentId := some parentId
      timestampMs := timestampMs + 1
      item := suffix.item
      providerReplay := suffix.providerReplay } ::
      suffixEntries (ids 0) (timestampMs + 1) (fun draw => ids (draw + 1)) rest

def suffixLeafId (parentId : EntryId) (ids : Nat → EntryId) : List ModelContextEntry → EntryId
  | [] => parentId
  | _ :: rest => suffixLeafId (ids 0) (fun draw => ids (draw + 1)) rest

namespace StoredCompactionJob

variable (job : StoredCompactionJob) (completion : CompactionCompletion) (ids : Nat → EntryId)

def rootEntry (rootTimestampMs : Nat) : TranscriptStorageNode where
  id := ids 0
  parentId := none
  timestampMs := rootTimestampMs
  item := .compactionSummary
    { sourceSessionId := job.sourceSessionId
      sourceLeafId := job.sourceLeafId
      summary := completion.summary
      tokensBefore := job.tokensBefore
      lastTurnId := job.lastTurnId
      turnStartedAtMs := job.turnStartedAtMs }
  providerReplay := completion.providerReplay

def installedEntries (rootTimestampMs : Nat) : List TranscriptStorageNode :=
  job.rootEntry completion ids rootTimestampMs ::
    suffixEntries (ids 0) rootTimestampMs (fun draw => ids (draw + 1))
      completion.continuationSuffix

end StoredCompactionJob

def CompactionCompletion.installedActiveLeafId (completion : CompactionCompletion)
    (ids : Nat → EntryId) : EntryId :=
  suffixLeafId (ids 0) (fun draw => ids (draw + 1)) completion.continuationSuffix

/-- Each entry is shown below the one before it, the first below the given leaf. -/
def ShownBelow : Option EntryId → List TranscriptStorageNode → Option EntryId → Prop
  | leafId, [], lastId => lastId = leafId
  | leafId, entry :: rest, lastId =>
    displayParentId entry = leafId ∧ ShownBelow (some entry.id) rest lastId

instance decidableShownBelow : (leafId : Option EntryId) → (entries : List TranscriptStorageNode) →
    (lastId : Option EntryId) → Decidable (ShownBelow leafId entries lastId)
  | leafId, [], lastId => inferInstanceAs (Decidable (lastId = leafId))
  | leafId, entry :: rest, lastId =>
    have := decidableShownBelow (some entry.id) rest lastId
    inferInstanceAs (Decidable (displayParentId entry = leafId ∧ _))

theorem suffixEntries_shown {suffix : List ModelContextEntry}
    (plain : ∀ entry ∈ suffix, ∀ summary, entry.item ≠ .compactionSummary summary)
    (parentId : EntryId) (timestampMs : Nat) (ids : Nat → EntryId) :
    ShownBelow (some parentId) (suffixEntries parentId timestampMs ids suffix)
      (some (suffixLeafId parentId ids suffix)) := by
  induction suffix generalizing parentId timestampMs ids with
  | nil => rfl
  | cons entry _ ih =>
    constructor
    · have notSummary := plain entry (.head _)
      rw [displayParentId]
      split
      · rename_i summary isSummary
        exact absurd isSummary (notSummary summary)
      · rfl
    · exact ih (List.forall_mem_cons.mp plain).2 _ _ _

theorem installedEntries_shown {completion : CompactionCompletion}
    (plain : ∀ entry ∈ completion.continuationSuffix,
      ∀ summary, entry.item ≠ .compactionSummary summary)
    (job : StoredCompactionJob) (ids : Nat → EntryId) (rootTimestampMs : Nat) :
    ShownBelow (some job.sourceLeafId) (job.installedEntries completion ids rootTimestampMs)
      (some (completion.installedActiveLeafId ids)) :=
  ⟨rfl, suffixEntries_shown plain _ _ _⟩

end PiRelay.Store
