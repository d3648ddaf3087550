import PiRelay.AgentStore.CompactionSources

/-! What an open turn goes on with after a compaction in its middle. The compacted root
takes the place of everything up to the blocked request, and below it stand once more the
messages the user has given in the turn. -/
namespace PiRelay.Runtime

open AgentVocab AgentCore Session Store List
open Library (Machine)

/-- A message that is given again below a compacted root. -/
def replayed (message : UserMessage) : UserMessage :=
  { message with replayedAfterCompaction := true }

def continuationEntry : TranscriptItem × List ProviderReplayItem → Option ModelContextEntry
  | (.userMessage message, providerReplay) =>
    some { item := .userMessage (replayed message), providerReplay }
  | _ => none

def continuationSuffixForScope (job : SourcedCompactionJob) :
    Except String (List ModelContextEntry) :=
  match job.stored.scope with
  | .boundary _ => .ok []
  | .midTurn _ _ _ _ _ =>
    match job.modelContext.openTurnEntries with
    | some openTurn => .ok (openTurn.filterMap continuationEntry)
    | none =>
      match job.modelContext.items with
      -- A blocked action remains in its turn even when its checkpoint is a bare root.
      | [.compactionSummary _] => .ok []
      | _ => .error "mid-turn compaction source has no open turn"

theorem filterMap_continuationEntry (entries : List TranscriptStorageNode) :
    ((entries.map fun entry => (entry.item, entry.providerReplay)).filterMap
        continuationEntry).map (·.item) =
      (userMessages (entries.map (·.item))).map fun message =>
        .userMessage (replayed message) := by
  induction entries with
  | nil => rfl
  | cons entry _ ih =>
    simp only [map_cons, userMessages, filterMap_cons] at ih ⊢
    cases entry.item with
    | userMessage =>
      simp only [continuationEntry, map_cons]
      rw [ih]
    | _ => exact ih

variable {job : SourcedCompactionJob}

/-- In an open turn the suffix is its messages, whatever the root of the branch is. -/
theorem continuationSuffix_of_open {turnId : TurnId} {startedAtMs : Nat}
    {before tail : List TranscriptStorageNode} {start : TranscriptStorageNode}
    (branch : OpenBranch turnId startedAtMs before start tail)
    (context : job.modelContext = contextOf (before ++ start :: tail))
    (midTurn : ∀ sourceLeafId, job.stored.scope ≠ .boundary sourceLeafId) :
    ∃ suffix, continuationSuffixForScope job = .ok suffix ∧
      suffix.map (·.item) = (userMessages (tail.map (·.item))).map fun message =>
        .userMessage (replayed message) := by
  rw [continuationSuffixForScope]
  cases isScope : job.stored.scope with
  | boundary sourceLeafId => exact absurd isScope (midTurn sourceLeafId)
  | midTurn =>
    rw [context]
    rcases branch.openTurnEntries with found | ⟨⟨summary, bare⟩, rfl, missed⟩
    · refine ⟨_, by rw [found], ?_⟩
      rw [filterMap_continuationEntry]
      have noMessage : userMessages [start.item] = [] := by
        have opens := branch.opens
        rw [Opens] at opens
        cases isStart : start.item with
        | userMessage => simp [isStart] at opens
        | _ => rfl
      have split : userMessages ((start :: tail).map (·.item)) =
          userMessages [start.item] ++ userMessages (tail.map (·.item)) := by
        exact userMessages_append [start.item] _
      rw [split, noMessage, nil_append]
    · exact ⟨[], by rw [missed, bare], rfl⟩

theorem suffixEntries_items (parentId : EntryId) (timestampMs : Nat) (ids : Nat → EntryId)
    (suffix : List ModelContextEntry) :
    (suffixEntries parentId timestampMs ids suffix).map (·.item) = suffix.map (·.item) := by
  induction suffix generalizing parentId timestampMs ids with
  | nil => rfl
  | cons _ _ ih =>
    rw [suffixEntries, map_cons, ih]
    rfl

theorem userMessages_replayed (messages : List UserMessage) :
    userMessages (messages.map fun message => .userMessage (replayed message)) =
      messages.map replayed := by
  induction messages with
  | nil => rfl
  | cons _ _ ih =>
    simp only [map_cons, ← ih]
    rfl

/-- The transcript of a session whose turn is open, the messages accepted in the turn, and
the compaction its model action waits for. -/
structure CompactedTurn where
  store : TranscriptStore
  accepted : List UserMessage
  compacting : Option SourcedCompactionJob

inductive CompactedTurnStep where
  | append (item : TranscriptItem) (providerReplay : List ProviderReplayItem) (stamp : EntryStamp)
  | block (sessionId : String) (actionId : ActionId) (rowId attemptId : String)
      (request : JobRequest)
  | complete (summary : String) (providerReplay : List ProviderReplayItem) (ids : Nat → EntryId)
      (rootTimestampMs : Nat)

namespace CompactedTurn

variable (turnId : TurnId)

def blockingModel (sourceLeafId : EntryId) (sessionId : String)
    (actionId : ActionId) (rowId attemptId : String) : BlockingModel :=
  { sessionId, sourceLeafId, turnId, actionId, rowId, attemptId }

variable (turn : CompactedTurn)

def appendItem (item : TranscriptItem)
    (providerReplay : List ProviderReplayItem) (stamp : EntryStamp) : CompactedTurn :=
  { turn with
    store := turn.store.appendItem item providerReplay stamp
    accepted := turn.accepted ++ userMessages [item] }

def install (job : SourcedCompactionJob)
    (completion : CompactionCompletion) (ids : Nat → EntryId) (rootTimestampMs : Nat) :
    CompactedTurn :=
  { turn with
    store := installCompaction turn.store job.stored completion ids rootTimestampMs
    compacting := none }

def step : CompactedTurnStep → Option CompactedTurn
  | .append item providerReplay stamp =>
    match turn.compacting with
    | some _ => none
    | none => some (turn.appendItem item providerReplay stamp)
  | .block sessionId actionId rowId attemptId request =>
    match turn.compacting, turn.store.activeLeafId with
    | none, some sourceLeafId =>
      (blockingCompactionJob turn.store
        (blockingModel turnId sourceLeafId sessionId actionId rowId attemptId)
        request).toOption.map fun job => { turn with compacting := some job }
    | _, _ => none
  | .complete summary providerReplay ids rootTimestampMs =>
    turn.compacting.bind fun job =>
      (continuationSuffixForScope job).toOption.map fun continuationSuffix =>
        turn.install job { summary, providerReplay, continuationSuffix } ids rootTimestampMs

/-- A turn that has just been opened on a transcript. -/
def Initial (startedAtMs : Nat) (turn : CompactedTurn) : Prop :=
  ∃ (prior : TranscriptStore) (id : EntryId), prior.Rooted ∧ id ∉ entryIds prior.nodes ∧
    turn =
      { store := prior.appendItem (.turnStarted turnId) [] { id, timestampMs := startedAtMs }
        accepted := []
        compacting := none }

def Admits : CompactedTurnStep → Prop
  | .append item _ stamp => InOpenTurn turnId item ∧ stamp.id ∉ entryIds turn.store.nodes
  | .block _ _ _ _ _ => True
  | .complete _ _ ids _ => DrawsFresh ids turn.store.nodes

def runs (startedAtMs : Nat) : Machine CompactedTurn CompactedTurnStep :=
  (Machine.ofSteps (Initial turnId startedAtMs) (step turnId)).guarded (Admits turnId)

def branch : List TranscriptStorageNode :=
  turn.store.pathEntries turn.store.activeLeafId

/-- The branch ends in the open turn with the accepted messages, and a compaction under way
is of this branch. -/
structure Instructed (turnId : TurnId) (startedAtMs : Nat) (turn : CompactedTurn) : Prop where
  rooted : turn.store.Rooted
  leaf : turn.store.activeLeafId.isSome = true
  path : ∃ before start tail, turn.branch = before ++ start :: tail ∧
    OpenBranch turnId startedAtMs before start tail ∧
      (userMessages (tail.map (·.item))).map replayed = turn.accepted.map replayed
  job : ∀ job, turn.compacting = some job →
    job.modelContext = contextOf turn.branch ∧ job.stored.lastTurnId = turnId ∧
      job.stored.turnStartedAtMs = some startedAtMs ∧
        ∀ sourceLeafId, job.stored.scope ≠ .boundary sourceLeafId

namespace Instructed

variable {turnId : TurnId} {startedAtMs : Nat} {turn : CompactedTurn}

theorem initially (initial : Initial turnId startedAtMs turn) :
    turn.Instructed turnId startedAtMs := by
  obtain ⟨prior, _, rooted, unused, rfl⟩ := initial
  constructor
  · exact rooted.appendItem _ _ unused
  · rfl
  · refine ⟨prior.pathEntries prior.activeLeafId, _, [],
      rooted.pathEntries_appendItem _ _ unused, ?_, rfl⟩
    constructor
    · exact ⟨rfl, rfl⟩
    · intro summary isRoot
      cases isRoot
    · intro entry mem
      cases mem
  · intro job compacting
    cases compacting

section

variable (instructed : turn.Instructed turnId startedAtMs)
include instructed

theorem appendItem {item : TranscriptItem} (inside : InOpenTurn turnId item)
    (providerReplay : List ProviderReplayItem) {stamp : EntryStamp}
    (unused : stamp.id ∉ entryIds turn.store.nodes) (idle : turn.compacting = none) :
    (turn.appendItem item providerReplay stamp).Instructed turnId startedAtMs := by
  obtain ⟨before, start, tail, isBranch, branch, messages⟩ := instructed.path
  constructor
  · exact instructed.rooted.appendItem _ _ unused
  · rfl
  · let entry : TranscriptStorageNode :=
      { id := stamp.id
        parentId := turn.store.activeLeafId
        timestampMs := stamp.timestampMs
        item := item
        providerReplay := providerReplay }
    have grown := instructed.rooted.pathEntries_appendItem item providerReplay unused
    have entryInside : InOpenTurn turnId entry.item := inside
    refine ⟨before, start, tail ++ [entry], ?_, branch.append entryInside, ?_⟩
    · rw [CompactedTurn.branch] at isBranch
      show (turn.store.appendItem item providerReplay stamp).pathEntries _ = _
      rw [CompactedTurn.appendItem, grown, isBranch, append_assoc, cons_append]
    · rw [map_append, userMessages_append, map_append, messages,
        CompactedTurn.appendItem, map_append]
      rfl
  · intro job compacting
    rw [CompactedTurn.appendItem, idle] at compacting
    cases compacting

theorem blocks {sourceLeafId : EntryId} (active : turn.store.activeLeafId = some sourceLeafId)
    (sessionId : String) (actionId : ActionId) (rowId attemptId : String) (request : JobRequest) :
    let model := blockingModel turnId sourceLeafId sessionId actionId rowId attemptId
    blockingCompactionJob turn.store model request = .ok (model.job request
          { modelContext := contextOf turn.branch
            lastTurnId := turnId
            turnStartedAtMs := some startedAtMs }) := by
  obtain ⟨_, _, _, isBranch, branch, _⟩ := instructed.path
  have read := readBlockingSource_of_open branch sourceLeafId
  rw [← isBranch, CompactedTurn.branch, active] at read
  intro model
  show (readBlockingSource (turn.store.pathEntries (some sourceLeafId)) sourceLeafId turnId).map _
    = _
  rw [read, CompactedTurn.branch, active]
  rfl

theorem continues (compacting : turn.compacting = some job) :
    ∃ suffix, continuationSuffixForScope job = .ok suffix ∧
      suffix.map (·.item) = turn.accepted.map fun message =>
        .userMessage (replayed message) := by
  obtain ⟨_, _, _, isBranch, branch, messages⟩ := instructed.path
  obtain ⟨context, -, -, midTurn⟩ := instructed.job job compacting
  obtain ⟨suffix, isSuffix, items⟩ := continuationSuffix_of_open branch (isBranch ▸ context) midTurn
  refine ⟨suffix, isSuffix, ?_⟩
  have same := congrArg (List.map TranscriptItem.userMessage) messages
  rw [map_map, map_map] at same
  exact items.trans same

theorem install (compacting : turn.compacting = some job)
    {suffix : List ModelContextEntry} (continues : continuationSuffixForScope job = .ok suffix)
    (summary : String) (providerReplay : List ProviderReplayItem) {ids : Nat → EntryId}
    (fresh : DrawsFresh ids turn.store.nodes) (rootTimestampMs : Nat) :
    (turn.install job { summary, providerReplay, continuationSuffix := suffix } ids
      rootTimestampMs).Instructed turnId startedAtMs := by
  obtain ⟨rooted, path⟩ := installCompaction_rooted instructed.rooted job.stored
    { summary, providerReplay, continuationSuffix := suffix } fresh rootTimestampMs
  obtain ⟨other, isOther, items⟩ := instructed.continues compacting
  obtain rfl : other = suffix := Except.ok.inj (isOther.symm.trans continues)
  obtain ⟨-, lastTurn, startedAt, -⟩ := instructed.job job compacting
  have installed := suffixEntries_items (ids 0) rootTimestampMs (fun draw => ids (draw + 1)) other
  rw [items] at installed
  constructor
  · exact rooted
  · rfl
  · refine ⟨[], _, _, path, ?_, ?_⟩
    · constructor
      · exact ⟨lastTurn, startedAt⟩
      · intro _ _
        rfl
      · intro entry mem
        have isMessage : entry.item ∈ _ := installed ▸ mem_map_of_mem mem
        obtain ⟨_, -, isItem⟩ := mem_map.mp isMessage
        rw [← isItem]
        trivial
    · show (userMessages (List.map _ (suffixEntries _ _ _ other))).map replayed = _
      rw [installed, userMessages_replayed, map_map]
      rfl
  · intro _ compactingStill
    cases compactingStill

/-- A step of the open turn keeps its instructions. -/
theorem step {label : CompactedTurnStep} {after : CompactedTurn} (admits : turn.Admits turnId label)
    (steps : turn.step turnId label = some after) : after.Instructed turnId startedAtMs := by
  cases label with
  | append _ providerReplay =>
    rw [CompactedTurn.step] at steps
    cases idle : turn.compacting with
    | some => simp [idle] at steps
    | none =>
      rw [idle] at steps
      cases steps
      exact instructed.appendItem admits.1 providerReplay admits.2 idle
  | block sessionId actionId rowId attemptId request =>
    rw [CompactedTurn.step] at steps
    cases idle : turn.compacting with
    | some => simp [idle] at steps
    | none =>
      cases active : turn.store.activeLeafId with
      | none => simp [idle, active] at steps
      | some =>
        have blocked := instructed.blocks active sessionId actionId rowId attemptId request
        simp only [idle, active, blocked] at steps
        cases steps
        refine ⟨instructed.rooted, instructed.leaf, instructed.path, ?_⟩
        intro job compacting
        cases compacting
        exact ⟨rfl, rfl, rfl, nofun⟩
  | complete summary providerReplay _ rootTimestampMs =>
    obtain ⟨job, compacting, completes⟩ := Option.bind_eq_some_iff.mp steps
    obtain ⟨_, continues, -⟩ := instructed.continues compacting
    rw [continues] at completes
    cases completes
    exact instructed.install compacting continues summary providerReplay admits rootTimestampMs

end

theorem of_reaches (reaches : (runs turnId startedAtMs).Reaches turn) :
    turn.Instructed turnId startedAtMs := by
  refine reaches.invariant ?_ ?_
  · intro _ initial
    exact initially initial
  · intro _ _ _ _ instructed steps
    exact instructed.step steps.1 steps.2

end Instructed

/-- However often an open turn is compacted, what is installed is a root of the turn with its
original start, and below it the messages accepted in the turn so far; and the model action
of the turn can be blocked again. -/
theorem compaction_keeps_instructions {turnId : TurnId} {startedAtMs : Nat}
    {turn : CompactedTurn} (reaches : (runs turnId startedAtMs).Reaches turn) :
    (∀ job, turn.compacting = some job →
      ∃ continuationSuffix, continuationSuffixForScope job = .ok continuationSuffix ∧
        ∀ summary providerReplay ids rootTimestampMs, DrawsFresh ids turn.store.nodes →
          ∃ root : CompactionSummary,
            (turn.install job { summary, providerReplay, continuationSuffix } ids
                rootTimestampMs).store.modelContext.items =
              .compactionSummary root :: turn.accepted.map (fun message =>
                .userMessage { message with replayedAfterCompaction := true }) ∧
            root.lastTurnId = turnId ∧ root.turnStartedAtMs = some startedAtMs) ∧
    (∀ sourceLeafId, turn.store.activeLeafId = some sourceLeafId →
      ∀ sessionId actionId rowId attemptId request,
        ∃ job, blockingCompactionJob turn.store
          (blockingModel turnId sourceLeafId sessionId actionId rowId attemptId) request =
            .ok job) := by
  have instructed := Instructed.of_reaches reaches
  constructor
  · intro job compacting
    obtain ⟨suffix, isSuffix, items⟩ := instructed.continues compacting
    obtain ⟨-, lastTurn, startedAt, -⟩ := instructed.job job compacting
    refine ⟨suffix, isSuffix, ?_⟩
    intro summary providerReplay ids rootTimestampMs fresh
    obtain ⟨-, path⟩ := installCompaction_rooted instructed.rooted job.stored
      { summary, providerReplay, continuationSuffix := suffix } fresh rootTimestampMs
    have installed := suffixEntries_items (ids 0) rootTimestampMs (fun draw => ids (draw + 1)) suffix
    rw [items] at installed
    let root : CompactionSummary :=
      { sourceSessionId := job.stored.sourceSessionId
        sourceLeafId := job.stored.sourceLeafId
        summary := summary
        tokensBefore := job.stored.tokensBefore
        lastTurnId := job.stored.lastTurnId
        turnStartedAtMs := job.stored.turnStartedAtMs }
    refine ⟨root, ?_, lastTurn, startedAt⟩
    have installedContext : (turn.install job
        { summary, providerReplay, continuationSuffix := suffix } ids
          rootTimestampMs).store.modelContext = contextOf _ := congrArg contextOf path
    rw [installedContext, contextOf_items, StoredCompactionJob.installedEntries, map_cons, installed]
    rfl
  · intro sourceLeafId active sessionId actionId rowId attemptId request
    exact ⟨_, instructed.blocks active sessionId actionId rowId attemptId request⟩

/-! A turn with a steer between two compactions. -/

/-- A step of the run below, with the ids of a compaction given by their length. -/
inductive SampleEntry where
  | append (message : String) (id : EntryId)
  | block (attemptId : String)
  | complete (used : Nat)

def SampleEntry.label : SampleEntry → CompactedTurnStep
  | .append message id => .append (.userMessage (.text message)) [] { id, timestampMs := 50 }
  | .block attemptId =>
    .block "session" 1 "model" attemptId
      { actionRowId := "compaction", attemptId := "attempt", tokensBefore := none
        trigger := .manual }
  | .complete used => .complete "so far" [] (fun draw => (stampsFrom used draw).id) 60

def SampleEntry.admitted (turn : CompactedTurn) : SampleEntry → Bool
  | .append _ id => !(entryIds turn.store.nodes).contains id
  | .block _ => true
  | .complete used => (entryIds turn.store.nodes).all (·.toList.length < used)

theorem SampleEntry.sound (turn : CompactedTurn) (entry : SampleEntry)
    (admitted : entry.admitted turn) : turn.Admits 1 entry.label := by
  cases entry with
  | append => exact ⟨trivial, by simpa [SampleEntry.admitted] using admitted⟩
  | block => trivial
  | complete => exact stampsFrom_fresh admitted

def sampleStart : CompactedTurn where
  store := ({} : TranscriptStore).appendItem (.turnStarted 1) [] { id := "start", timestampMs := 40 }
  accepted := []
  compacting := none

def sampleScript : List SampleEntry :=
  [.append "build" "build", .block "first", .complete 7, .append "test" "test", .block "second"]

def sampleRun : Option CompactedTurn :=
  sampleScript.foldlM
    (fun turn entry => if entry.admitted turn then turn.step 1 entry.label else none) sampleStart

def sampleTurn : CompactedTurn := sampleRun.getD sampleStart

theorem sampleTurn_reached : (runs 1 40).Reaches sampleTurn := by
  have starts : (runs 1 40).Reaches sampleStart :=
    .start ⟨{}, "start", ⟨.nil, nofun⟩, by simp [entryIds], rfl⟩
  have enabled : sampleRun = some sampleTurn := rfl
  exact starts.checkedRun SampleEntry.sound enabled

theorem second_compaction_keeps_both_messages :
    ∃ (job : SourcedCompactionJob) (suffix : List ModelContextEntry) (root : CompactionSummary),
      sampleTurn.compacting = some job ∧ continuationSuffixForScope job = .ok suffix ∧
        (sampleTurn.install job
            { summary := "again", providerReplay := [], continuationSuffix := suffix }
            (fun draw => (stampsFrom 20 draw).id) 70).store.modelContext.items =
          [.compactionSummary root,
            .userMessage { content := [.text "build"], replayedAfterCompaction := true },
            .userMessage { content := [.text "test"], replayedAfterCompaction := true }] ∧
        root.lastTurnId = 1 ∧ root.turnStartedAtMs = some 40 := by
  obtain ⟨installs, -⟩ := compaction_keeps_instructions sampleTurn_reached
  obtain ⟨job, compacting⟩ : ∃ job, sampleTurn.compacting = some job := ⟨_, rfl⟩
  obtain ⟨suffix, isSuffix, installed⟩ := installs job compacting
  have fresh : DrawsFresh (fun draw => (stampsFrom 20 draw).id) sampleTurn.store.nodes :=
    stampsFrom_fresh (by decide +kernel)
  obtain ⟨root, items, lastTurn, startedAt⟩ := installed "again" [] _ 70 fresh
  exact ⟨job, suffix, root, compacting, isSuffix, items, lastTurn, startedAt⟩

end CompactedTurn

end PiRelay.Runtime
