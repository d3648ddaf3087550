import Mathlib.Data.List.Count
import PiRelay.AgentDaemon.ContinuationSuffix
import PiRelay.AgentProvider.TracedInput

/-! An open turn compacted by OpenAI. Its messages go on in two ways: the adapter retains
them in the replay of the new root, and the continuation gives them again below it. The
input that is rendered from what has been installed therefore has a message once only where
the budget of the adapter was used up before the message was reached. -/
namespace PiRelay.Runtime

open AgentVocab AgentCore Session Store AgentProvider List Option
open Library (Json bind_eq_ok Machine budgetLeft)

variable (text : ProviderText) (prompt : PromptSections)

def openaiCompactedItems (job : SourcedCompactionJob) (responseReplay : List ProviderReplayItem) :
    ProviderResult (List Json) := do
  let transcript := providerTranscript text
    (compactionContextForScope job.modelContext job.stored.scope)
  let retained ← retainedCompactionInput text prompt transcript
  compactV2Items text retained responseReplay

/-- What is written as text is read as what it was. -/
def ReadsBack (items : List Json) : Prop :=
  ∀ item ∈ items, text.fromText (text.toText item) = some item

/-- The entries of a context as they are given to the provider, with their marks. -/
def tracedEntries (context : ModelContext) (marks : List (List (Option Nat))) : List TracedEntry :=
  (providerTranscript text context).zip marks

/-- The messages that the retained items are of. -/
def retainedMarks (job : SourcedCompactionJob) (marks : List (List (Option Nat))) :
    ProviderResult (List (Option Nat)) := do
  let candidates ← tracedCandidates text prompt (tracedEntries text job.modelContext marks)
  .ok ((retainTraced text candidates codexCompactionRetainedTokenBudget).map Prod.fst)

def continuationMark : TranscriptItem × List (Option Nat) → Option (List (Option Nat))
  | (.userMessage _, marks) => some marks
  | _ => none

/-- A message that is given again keeps its mark. -/
def continuationMarks (items : List TranscriptItem) (marks : List (List (Option Nat))) :
    List (List (Option Nat)) :=
  match ModelContext.openTurnStart items with
  | some (_, turnStart) => ((items.zip marks).drop turnStart).filterMap continuationMark
  | none => []

/-- A turn, and for each entry of its branch the accepted messages its items are of. -/
structure TracedTurn where
  turn : CompactedTurn
  marks : List (List (Option Nat))

namespace TracedTurn

def newMarks (turn : CompactedTurn) : TranscriptItem → List (Option Nat)
  | .userMessage _ => [some turn.accepted.length]
  | _ => []

/-- The steps of the turn. The replay of a completion is the one of the response. -/
def step (turnId : TurnId) (traced : TracedTurn) : CompactedTurnStep → Option TracedTurn
  | .append item providerReplay stamp =>
    (traced.turn.step turnId (.append item providerReplay stamp)).map fun turn =>
      { turn, marks := traced.marks ++ [newMarks traced.turn item] }
  | .block sessionId actionId rowId attemptId request =>
    (traced.turn.step turnId (.block sessionId actionId rowId attemptId request)).map fun turn =>
      { traced with turn }
  | .complete summary responseReplay ids rootTimestampMs =>
    traced.turn.compacting.bind fun job =>
      match openaiCompactedItems text prompt job responseReplay,
          retainedMarks text prompt job traced.marks with
      | .ok items, .ok retained =>
        (traced.turn.step turnId
          (.complete summary (items.map (newReplayItem text)) ids rootTimestampMs)).map
          fun turn =>
            { turn
              marks := (retained ++ [none])
                :: continuationMarks job.modelContext.items traced.marks }
      | _, _ => none

def Initial (turnId : TurnId) (startedAtMs : Nat) (traced : TracedTurn) : Prop :=
  traced.turn.Initial turnId startedAtMs ∧
    traced.marks = List.replicate traced.turn.branch.length []

def Admits (turnId : TurnId) (traced : TracedTurn) (label : CompactedTurnStep) : Prop :=
  traced.turn.Admits turnId label ∧
    match label with
    | .complete _ responseReplay _ _ =>
      ∀ job, traced.turn.compacting = some job → ∀ items,
        openaiCompactedItems text prompt job responseReplay = .ok items → ReadsBack text items
    | _ => True

def runs (turnId : TurnId) (startedAtMs : Nat) : Machine TracedTurn CompactedTurnStep :=
  (Machine.ofSteps (Initial turnId startedAtMs) (step text prompt turnId)).guarded
    (Admits text prompt turnId)

/-- The input rendered from the branch has each accepted message once. -/
def OccursOnce (traced : TracedTurn) : Prop :=
  ∃ items, tracedItems text prompt
      (tracedEntries text traced.turn.store.modelContext traced.marks) = .ok items ∧
    ∀ message < traced.turn.accepted.length, (items.map Prod.fst).count (some message) = 1

end TracedTurn

def afterLastMessage (transcript : List ModelContextEntry) : List ModelContextEntry :=
  (transcript.reverse.takeWhile fun entry =>
    match entry.item with
    | .userMessage _ => false
    | _ => true).reverse

/-- What came after the last message uses up the budget of the retained items. -/
def BudgetUsedUp (transcript : List ModelContextEntry) : Prop :=
  ∃ candidates, retainedCandidates text prompt (afterLastMessage transcript) = .ok candidates ∧
    budgetLeft (compactItemTextTokens text) truncateCompactionMessage candidates.reverse
      codexCompactionRetainedTokenBudget = 0

/-- The marks of entries that are appended, from the given number of messages on. -/
def messageMarks : Nat → List TranscriptItem → List (List (Option Nat))
  | _, [] => []
  | accepted, .userMessage _ :: rest => [some accepted] :: messageMarks (accepted + 1) rest
  | accepted, _ :: rest => [] :: messageMarks accepted rest

variable (accepted : Nat)

theorem messageMarks_append (first second : List TranscriptItem) :
    messageMarks accepted (first ++ second) =
      messageMarks accepted first ++
        messageMarks (accepted + (userMessages first).length) second := by
  induction first generalizing accepted with
  | nil => rfl
  | cons item rest ih =>
    cases item with
    | userMessage message =>
      have counts : accepted + (userMessages (.userMessage message :: rest)).length =
          accepted + 1 + (userMessages rest).length := by
        show accepted + ((userMessages rest).length + 1) = _
        omega
      rw [counts]
      show [some accepted] :: messageMarks (accepted + 1) (rest ++ second) = _
      rw [ih]
      rfl
    | _ => exact congrArg (List.cons []) (ih accepted)

theorem messageMarks_length (items : List TranscriptItem) :
    (messageMarks accepted items).length = items.length := by
  induction items generalizing accepted with
  | nil => rfl
  | cons item _ ih =>
    cases item with
    | userMessage => exact congrArg (· + 1) (ih (accepted + 1))
    | _ => exact congrArg (· + 1) (ih accepted)

theorem messageMarks_of_none {items : List TranscriptItem} (noMessage : userMessages items = []) :
    ∀ marks ∈ messageMarks accepted items, marks = [] := by
  induction items generalizing accepted with
  | nil =>
    intro marks mem
    cases mem
  | cons item _ ih =>
    cases item with
    | userMessage => cases noMessage
    | _ =>
      intro marks mem
      rcases mem_cons.mp mem with rfl | later
      · rfl
      · exact ih accepted noMessage marks later

theorem filterMap_continuationMark (items : List TranscriptItem) :
    (items.zip (messageMarks accepted items)).filterMap continuationMark =
      messageMarks accepted ((userMessages items).map TranscriptItem.userMessage) := by
  induction items generalizing accepted with
  | nil => rfl
  | cons item _ ih =>
    cases item with
    | userMessage => exact congrArg (List.cons _) (ih (accepted + 1))
    | _ => exact ih accepted

theorem messageMarks_userMessages {first second : List UserMessage}
    (same : first.length = second.length) :
    messageMarks accepted (first.map .userMessage) =
      messageMarks accepted (second.map .userMessage) := by
  induction first generalizing accepted second with
  | nil => rw [eq_nil_of_length_eq_zero same.symm]
  | cons _ _ ih =>
    cases second with
    | nil => cases same
    | cons =>
      show [some accepted] :: messageMarks (accepted + 1) _ =
        [some accepted] :: messageMarks (accepted + 1) _
      rw [ih (accepted + 1) (Nat.succ.inj same)]

/-- The branch ends in the open turn, and the entries of the turn are marked as they were
accepted. -/
structure TracedTurn.Marked (turnId : TurnId) (startedAtMs : Nat) (traced : TracedTurn) : Prop where
  instructed : traced.turn.Instructed turnId startedAtMs
  path : ∃ before start tail older, traced.turn.branch = before ++ start :: tail ∧
    OpenBranch turnId startedAtMs before start tail ∧
      traced.marks = older ++ messageMarks 0 (tail.map (·.item)) ∧
        older.length = before.length + 1 ∧
          (userMessages (tail.map (·.item))).length = traced.turn.accepted.length

theorem continuationMarks_of_open {turnId : TurnId} {startedAtMs : Nat}
    {before tail : List TranscriptStorageNode} {start : TranscriptStorageNode}
    (branch : OpenBranch turnId startedAtMs before start tail)
    {older : List (List (Option Nat))} (aligned : older.length = before.length + 1) :
    continuationMarks (contextOf (before ++ start :: tail)).items
        (older ++ messageMarks 0 (tail.map (·.item))) =
      messageMarks 0 ((userMessages (tail.map (·.item))).map .userMessage) := by
  rw [continuationMarks]
  rcases branch.openTurnStart with found | ⟨-, rfl, rfl, missed⟩
  · rw [found, contextOf_items]
    obtain ⟨beforeMarks, startMarks, rfl, sameLength⟩ :
        ∃ beforeMarks startMarks, older = beforeMarks ++ [startMarks] ∧
          beforeMarks.length = before.length := by
      have some : older ≠ [] := ne_nil_of_length_pos (by omega)
      refine ⟨older.dropLast, older.getLast some, (dropLast_append_getLast some).symm, ?_⟩
      rw [length_dropLast]
      omega
    have drops : ((List.map (·.item) (before ++ start :: tail)).zip
        ((beforeMarks ++ [startMarks]) ++ messageMarks 0 (tail.map (·.item)))).drop before.length =
          (start.item, startMarks) :: (tail.map (·.item)).zip
            (messageMarks 0 (tail.map (·.item))) := by
      rw [map_append, append_assoc, zip_append (by simp [sameLength]),
        drop_left' (by simp [sameLength])]
      rfl
    have notMessage : continuationMark (start.item, startMarks) = none := by
      have opens := branch.opens
      rw [Opens] at opens
      cases isStart : start.item with
      | userMessage => simp [isStart] at opens
      | _ => rfl
    show ((List.zip _ _).drop before.length).filterMap continuationMark = _
    rw [drops, filterMap_cons_none notMessage, filterMap_continuationMark]
  · rw [missed]
    rfl

namespace TracedTurn.Marked

variable {text prompt} {turnId : TurnId} {startedAtMs : Nat} {traced after : TracedTurn}

theorem initially (initial : TracedTurn.Initial turnId startedAtMs traced) :
    traced.Marked turnId startedAtMs := by
  obtain ⟨isInitial, isMarks⟩ := initial
  have instructed := CompactedTurn.Instructed.initially isInitial
  refine ⟨instructed, ?_⟩
  obtain ⟨prior, id, rooted, unused, isTurn⟩ := isInitial
  have fresh : traced.turn.branch = prior.pathEntries prior.activeLeafId ++
      [{ id, parentId := prior.activeLeafId, timestampMs := startedAtMs
         item := .turnStarted turnId, providerReplay := [] }] := by
    rw [isTurn]
    exact rooted.pathEntries_appendItem _ _ unused
  refine ⟨prior.pathEntries prior.activeLeafId, _, [], traced.marks, fresh, ?_, ?_, ?_, ?_⟩
  · refine ⟨⟨rfl, rfl⟩, ?_, ?_⟩
    · intro summary isRoot
      cases isRoot
    · intro entry mem
      cases mem
  · exact (append_nil _).symm
  · rw [isMarks, length_replicate, fresh, length_append]
    rfl
  · rw [isTurn]
    rfl

section

variable (marked : traced.Marked turnId startedAtMs)
include marked

/-- Appending an item keeps the marks of the open turn. -/
theorem append {item : TranscriptItem} {providerReplay : List ProviderReplayItem}
    {stamp : EntryStamp} (admits : traced.turn.Admits turnId (.append item providerReplay stamp))
    (steps : traced.step text prompt turnId (.append item providerReplay stamp) = some after) :
    after.Marked turnId startedAtMs := by
  obtain ⟨_, turnSteps, rfl⟩ := map_eq_some_iff.mp steps
  have instructed := marked.instructed.step admits turnSteps
  rw [CompactedTurn.step] at turnSteps
  cases idle : traced.turn.compacting with
  | some => simp [idle] at turnSteps
  | none =>
    rw [idle] at turnSteps
    cases turnSteps
    refine ⟨instructed, ?_⟩
    obtain ⟨before, start, tail, older, isBranch, branch, isMarks, aligned, counts⟩ := marked.path
    let entry : TranscriptStorageNode :=
      { id := stamp.id
        parentId := traced.turn.store.activeLeafId
        timestampMs := stamp.timestampMs
        item := item
        providerReplay := providerReplay }
    have grown := marked.instructed.rooted.pathEntries_appendItem item providerReplay admits.2
    have inside : InOpenTurn turnId entry.item := admits.1
    refine ⟨before, start, tail ++ [entry], older, ?_, branch.append inside, ?_, aligned, ?_⟩
    · rw [CompactedTurn.branch] at isBranch
      show (traced.turn.store.appendItem item providerReplay stamp).pathEntries _ = _
      rw [CompactedTurn.appendItem, grown, isBranch, append_assoc, cons_append]
    · have newest : messageMarks (0 + (userMessages (tail.map (·.item))).length) [entry.item] =
          [newMarks traced.turn item] := by
        rw [Nat.zero_add, counts]
        cases item <;> rfl
      rw [map_append, messageMarks_append, isMarks, append_assoc]
      exact congrArg (fun marks => older ++ (messageMarks 0 _ ++ marks)) newest.symm
    · show _ = (traced.turn.accepted ++ userMessages [item]).length
      rw [map_append, userMessages_append, length_append, length_append, counts]
      rfl

theorem block {sessionId rowId attemptId : String} {actionId : ActionId} {request : JobRequest}
    (steps : traced.step text prompt turnId
      (.block sessionId actionId rowId attemptId request) = some after) :
    after.Marked turnId startedAtMs := by
  obtain ⟨_, turnSteps, rfl⟩ := map_eq_some_iff.mp steps
  have admits : traced.turn.Admits turnId (.block sessionId actionId rowId attemptId request) :=
    trivial
  have instructed := marked.instructed.step admits turnSteps
  rw [CompactedTurn.step] at turnSteps
  cases idle : traced.turn.compacting with
  | some => simp [idle] at turnSteps
  | none =>
    cases active : traced.turn.store.activeLeafId with
    | none => simp [idle, active] at turnSteps
    | some =>
      rw [idle, active] at turnSteps
      obtain ⟨job, -, rfl⟩ := map_eq_some_iff.mp turnSteps
      exact ⟨instructed, marked.path⟩

variable {summary : String} {responseReplay : List ProviderReplayItem} {ids : Nat → EntryId}
  {rootTimestampMs : Nat}

theorem completes (steps : traced.step text prompt turnId
      (.complete summary responseReplay ids rootTimestampMs) = some after) :
    ∃ job items candidates suffix, traced.turn.compacting = some job ∧
      openaiCompactedItems text prompt job responseReplay = .ok items ∧
        tracedCandidates text prompt (tracedEntries text job.modelContext traced.marks) =
            .ok candidates ∧
          suffix.map (·.item) = traced.turn.accepted.map (fun message =>
              .userMessage (replayed message)) ∧
            traced.turn.step turnId (.complete summary (items.map (newReplayItem text)) ids
                rootTimestampMs) = some after.turn ∧
              after.turn = traced.turn.install job
                  { summary, providerReplay := items.map (newReplayItem text)
                    continuationSuffix := suffix } ids rootTimestampMs ∧
                after.marks =
                  ((retainTraced text candidates codexCompactionRetainedTokenBudget).map Prod.fst
                    ++ [none]) :: messageMarks 0 (suffix.map (·.item)) := by
  obtain ⟨job, compacting, completes⟩ := bind_eq_some_iff.mp steps
  obtain ⟨suffix, continues, suffixItems⟩ := marked.instructed.continues compacting
  obtain ⟨context, -, -, -⟩ := marked.instructed.job job compacting
  cases isItems : openaiCompactedItems text prompt job responseReplay with
  | error => simp [isItems] at completes
  | ok items =>
    cases isRetained : retainedMarks text prompt job traced.marks with
    | error => simp [isItems, isRetained] at completes
    | ok =>
      rw [isItems, isRetained] at completes
      obtain ⟨_, turnSteps, rfl⟩ := map_eq_some_iff.mp completes
      obtain ⟨candidates, isCandidates, isRetained⟩ := bind_eq_ok.mp isRetained
      cases isRetained
      refine ⟨job, items, candidates, suffix, compacting, isItems, isCandidates, suffixItems,
        turnSteps, ?_, ?_⟩
      · rw [CompactedTurn.step, compacting, bind_some, continues] at turnSteps
        exact (Option.some.inj turnSteps).symm
      · obtain ⟨before, start, tail, older, isBranch, branch, isMarks, aligned, counts⟩ :=
          marked.path
        have marks := continuationMarks_of_open branch aligned
        rw [← isBranch, ← context, ← isMarks] at marks
        rw [marks, suffixItems]
        have sameLength : (userMessages (tail.map (·.item))).length =
            (traced.turn.accepted.map replayed).length := by
          rw [counts, length_map]
        rw [messageMarks_userMessages 0 sameLength, List.map_map]
        rfl

theorem complete (fresh : DrawsFresh ids traced.turn.store.nodes)
    (steps : traced.step text prompt turnId
      (.complete summary responseReplay ids rootTimestampMs) = some after) :
    after.Marked turnId startedAtMs := by
  obtain ⟨job, items, candidates, suffix, compacting, -, -, suffixItems, turnSteps, isInstalled,
    isMarks⟩ := marked.completes steps
  have admits : traced.turn.Admits turnId
      (.complete summary (items.map (newReplayItem text)) ids rootTimestampMs) := fresh
  refine ⟨marked.instructed.step admits turnSteps, ?_⟩
  obtain ⟨-, lastTurn, startedAt, -⟩ := marked.instructed.job job compacting
  let completion : CompactionCompletion :=
    { summary, providerReplay := items.map (newReplayItem text), continuationSuffix := suffix }
  obtain ⟨-, path⟩ := installCompaction_rooted marked.instructed.rooted job.stored completion
    fresh rootTimestampMs
  have installed := suffixEntries_items (ids 0) rootTimestampMs (fun draw => ids (draw + 1)) suffix
  rw [suffixItems] at installed
  refine ⟨[], job.stored.rootEntry completion ids rootTimestampMs,
    suffixEntries (ids 0) rootTimestampMs (fun draw => ids (draw + 1)) suffix,
    [(retainTraced text candidates codexCompactionRetainedTokenBudget).map Prod.fst ++ [none]],
    ?_, ?_, ?_, rfl, ?_⟩
  · rw [isInstalled]
    exact path
  · refine ⟨⟨lastTurn, startedAt⟩, fun _ _ => rfl, ?_⟩
    intro entry mem
    have isMessage : entry.item ∈ _ := installed ▸ mem_map_of_mem mem
    obtain ⟨_, -, isItem⟩ := mem_map.mp isMessage
    rw [← isItem]
    trivial
  · rw [isMarks, suffixItems]
    exact congrArg (fun items => _ :: messageMarks 0 items) installed.symm
  · show (userMessages (List.map _ (suffixEntries _ _ _ suffix))).length = _
    rw [installed, userMessages_replayed, length_map, isInstalled]
    rfl

theorem step {label : CompactedTurnStep} (admits : traced.turn.Admits turnId label)
    (steps : traced.step text prompt turnId label = some after) :
    after.Marked turnId startedAtMs := by
  cases label with
  | append => exact marked.append admits steps
  | block => exact marked.block steps
  | complete => exact marked.complete admits steps

end

theorem of_reaches
    (reaches : (TracedTurn.runs text prompt turnId startedAtMs).Reaches traced) :
    traced.Marked turnId startedAtMs := by
  refine reaches.invariant ?_ ?_
  · intro _ initial
    exact initially initial
  · intro _ _ _ _ marked steps
    exact marked.step steps.1.1 steps.2

end TracedTurn.Marked

def providerEntry (entry : TranscriptStorageNode) : ModelContextEntry :=
  { entry.contextEntry with item := normalizeTranscriptItemForProvider text entry.contextEntry }

theorem providerTranscript_contextOf (entries : List TranscriptStorageNode) :
    providerTranscript text (contextOf entries) = entries.map (providerEntry text) := by
  have entriesBack : (contextOf entries).intoEntries =
      entries.map TranscriptStorageNode.contextEntry := by
    simp only [contextOf, ModelContext.fromEntries, ModelContext.intoEntries, zipWith_map_left,
      zipWith_map_right, zipWith_self]
  rw [providerTranscript, entriesBack, List.map_map]
  rfl

theorem providerEntry_user {entry : TranscriptStorageNode} {message : UserMessage}
    (isMessage : entry.item = .userMessage message) :
    (providerEntry text entry).item = .userMessage message := by
  show normalizeTranscriptItemForProvider text entry.contextEntry = _
  rw [normalizeTranscriptItemForProvider]
  have item : entry.contextEntry.item = .userMessage message := isMessage
  rw [item]
  cases entry.contextEntry.providerReplay.head?.map (·.provider) <;> rfl

theorem providerEntry_summary {entry : TranscriptStorageNode} {summary : CompactionSummary}
    (isRoot : entry.item = .compactionSummary summary) :
    providerEntry text entry =
      { item := .compactionSummary summary, providerReplay := entry.providerReplay } := by
  have same : normalizeTranscriptItemForProvider text entry.contextEntry =
      .compactionSummary summary := by
    rw [normalizeTranscriptItemForProvider]
    have item : entry.contextEntry.item = .compactionSummary summary := isRoot
    rw [item]
    cases entry.contextEntry.providerReplay.head?.map (·.provider) <;> rfl
  rw [providerEntry, same]
  rfl

theorem tracedItems_continuation {entries : List TranscriptStorageNode}
    {messages : List UserMessage}
    (isMessages : entries.map (·.item) = messages.map .userMessage) (accepted : Nat) :
    ∃ items, tracedItems text prompt ((entries.map (providerEntry text)).zip
        (messageMarks accepted (entries.map (·.item)))) = .ok items ∧
      items.map Prod.fst = (List.range' accepted messages.length).map some := by
  induction entries generalizing messages accepted with
  | nil =>
    cases messages with
    | nil => exact ⟨[], rfl, rfl⟩
    | cons => cases isMessages
  | cons entry rest ih =>
    cases messages with
    | nil => cases isMessages
    | cons message =>
      obtain ⟨isMessage, isRest⟩ := List.cons.inj isMessages
      have isMessage : entry.item = .userMessage message := isMessage
      obtain ⟨later, isLater, laterMarks⟩ := ih isRest (accepted + 1)
      have renders : entryResponseItems text prompt (providerEntry text entry) =
          .ok [userMessageItem message] := by
        rw [entryResponseItems, providerEntry_user text isMessage]
      have marks : messageMarks accepted ((entry :: rest).map (·.item)) =
          [some accepted] :: messageMarks (accepted + 1) (rest.map (·.item)) := by
        rw [map_cons, isMessage]
        rfl
      refine ⟨(some accepted, userMessageItem message) :: later, ?_, ?_⟩
      · rw [marks, map_cons, zip_cons_cons, tracedItems, renders, isLater]
        rfl
      · rw [map_cons, laterMarks, length_cons, range'_succ, map_cons]

theorem providerEntry_isUserMessage (entry : TranscriptStorageNode) :
    (providerEntry text entry).item.isUserMessage = entry.item.isUserMessage := by
  show (normalizeTranscriptItemForProvider text entry.contextEntry).isUserMessage =
    entry.contextEntry.item.isUserMessage
  rw [normalizeTranscriptItemForProvider]
  cases entry.contextEntry.providerReplay.head?.map (·.provider) <;>
    cases entry.contextEntry.item <;> rfl

theorem isUserMessage_of_none {items : List TranscriptItem} (noMessage : userMessages items = []) :
    ∀ item ∈ items, item.isUserMessage = false := by
  intro item mem
  have dropped := filterMap_eq_nil_iff.mp noMessage item mem
  cases item with
  | userMessage => cases dropped
  | _ => rfl

theorem exists_last_message {entries : List TranscriptStorageNode}
    (some : userMessages (entries.map (·.item)) ≠ []) :
    ∃ older entry message newer, entries = older ++ entry :: newer ∧
      entry.item = .userMessage message ∧ userMessages (newer.map (·.item)) = [] := by
  induction entries with
  | nil => exact absurd rfl some
  | cons entry rest ih =>
    by_cases later : userMessages (rest.map (·.item)) = []
    · cases isItem : entry.item with
      | userMessage message => exact ⟨[], entry, message, rest, rfl, isItem, later⟩
      | _ =>
        exfalso
        apply some
        rw [map_cons, isItem]
        exact later
    · obtain ⟨older, last, message, newer, rfl, isMessage, none⟩ := ih later
      exact ⟨entry :: older, last, message, newer, rfl, isMessage, none⟩

theorem afterLastMessage_eq {older newer : List ModelContextEntry} {entry : ModelContextEntry}
    (isMessage : entry.item.isUserMessage)
    (none : ∀ other ∈ newer, other.item.isUserMessage = false) :
    afterLastMessage (older ++ entry :: newer) = newer := by
  have split : (older ++ entry :: newer).reverse = newer.reverse ++ entry :: older.reverse := by
    simp
  rw [afterLastMessage, split, takeWhile_append_of_pos, takeWhile_cons_of_neg,
    append_nil, reverse_reverse]
  · cases isItem : entry.item with
    | userMessage => simp
    | _ => simp [isItem, TranscriptItem.isUserMessage] at isMessage
  · intro other mem
    have notMessage := none other (mem_reverse.mp mem)
    cases isItem : other.item with
    | userMessage => simp [isItem, TranscriptItem.isUserMessage] at notMessage
    | _ => rfl

namespace TracedTurn.Marked

variable {text prompt} {turnId : TurnId} {startedAtMs : Nat} {traced after : TracedTurn}

section

variable (marked : traced.Marked turnId startedAtMs)
include marked

theorem marks_length : traced.marks.length = traced.turn.branch.length := by
  obtain ⟨_, _, _, _, isBranch, -, isMarks, aligned, -⟩ := marked.path
  rw [isMarks, isBranch, length_append, messageMarks_length, aligned, length_map,
    length_append, length_cons]
  omega

theorem candidates_snd {job : SourcedCompactionJob} (compacting : traced.turn.compacting = some job)
    {candidates : List TracedItem}
    (found : tracedCandidates text prompt (tracedEntries text job.modelContext traced.marks) =
      .ok candidates) :
    retainedCandidates text prompt (providerTranscript text job.modelContext) =
      .ok (candidates.map Prod.snd) := by
  obtain ⟨context, -, -, -⟩ := marked.instructed.job job compacting
  have same := tracedCandidates_snd text prompt (tracedEntries text job.modelContext traced.marks)
  have sameLength : (providerTranscript text job.modelContext).length ≤ traced.marks.length := by
    rw [context, providerTranscript_contextOf, length_map, marked.marks_length]
  rw [found, tracedEntries, map_fst_zip sameLength] at same
  exact same.symm

section

variable (admits : traced.Admits text prompt turnId
  (.complete summary responseReplay ids rootTimestampMs))
include admits

section

variable (steps : traced.step text prompt turnId
  (.complete summary responseReplay ids rootTimestampMs) = some after)
include steps

theorem renders :
    ∃ job candidates items, traced.turn.compacting = some job ∧
      tracedCandidates text prompt (tracedEntries text job.modelContext traced.marks) =
          .ok candidates ∧
        tracedItems text prompt
            (tracedEntries text after.turn.store.modelContext after.marks) = .ok items ∧
          after.turn.accepted = traced.turn.accepted ∧
            items.map Prod.fst =
              ((retainTraced text candidates codexCompactionRetainedTokenBudget).map Prod.fst
                ++ [none]) ++ (List.range traced.turn.accepted.length).map some := by
  obtain ⟨job, items, candidates, suffix, compacting, isItems, isCandidates, suffixItems, -,
    isInstalled, isMarks⟩ := marked.completes steps
  have readsBack : ReadsBack text items := admits.2 job compacting items isItems
  obtain ⟨retained, isRetained, compacts⟩ := bind_eq_ok.mp isItems
  have contextIs : compactionContextForScope job.modelContext job.stored.scope = job.modelContext := by
    cases job.stored.scope <;> rfl
  rw [contextIs] at isRetained
  -- the items of the root are the marked ones and the checkpoint
  obtain ⟨_, split, -⟩ := compactV2Items_eq text compacts
  have types := retainedCompactionInput_type text prompt isRetained
  obtain ⟨typed, one⟩ := compactV2Items_valid text types compacts
  rw [retainedCompactionInput, marked.candidates_snd compacting isCandidates] at isRetained
  have retainedIs : (retainTraced text candidates codexCompactionRetainedTokenBudget).map Prod.snd =
      retained := (retainTraced_snd text candidates _).trans (Except.ok.inj isRetained)
  let completion : CompactionCompletion :=
    { summary, providerReplay := items.map (newReplayItem text), continuationSuffix := suffix }
  obtain ⟨-, path⟩ := installCompaction_rooted marked.instructed.rooted job.stored completion
    admits.1 rootTimestampMs
  have context : after.turn.store.modelContext =
      contextOf (job.stored.installedEntries completion ids rootTimestampMs) := by
    rw [isInstalled]
    exact congrArg contextOf path
  have installed := suffixEntries_items (ids 0) rootTimestampMs (fun draw => ids (draw + 1)) suffix
  rw [suffixItems] at installed
  have asMessages : (suffixEntries (ids 0) rootTimestampMs (fun draw => ids (draw + 1)) suffix).map
      (·.item) = (traced.turn.accepted.map replayed).map .userMessage := by
    rw [installed, List.map_map]
    rfl
  obtain ⟨later, isLater, laterMarks⟩ := tracedItems_continuation text prompt asMessages 0
  have root : entryResponseItems text prompt
      (providerEntry text (job.stored.rootEntry completion ids rootTimestampMs)) = .ok items := by
    rw [providerEntry_summary text rfl]
    exact root_renders text prompt readsBack typed one _
  let kept := (retainTraced text candidates codexCompactionRetainedTokenBudget).map Prod.fst
  refine ⟨job, candidates, markItems (kept ++ [none]) items ++ later, compacting, isCandidates, ?_,
    ?_, ?_⟩
  · rw [tracedEntries, context, providerTranscript_contextOf, isMarks,
      StoredCompactionJob.installedEntries, map_cons, zip_cons_cons, tracedItems, root,
      suffixItems, ← installed, isLater]
    rfl
  · rw [isInstalled]
    rfl
  · have enough : (kept ++ [none]).length = items.length := by
      rw [split, ← retainedIs]
      simp [kept]
    rw [map_append, markItems_fst enough, laterMarks, length_map, range_eq_range']

theorem occursOnce_iff :
    ∃ job candidates, traced.turn.compacting = some job ∧
      tracedCandidates text prompt (tracedEntries text job.modelContext traced.marks) =
          .ok candidates ∧
        (after.OccursOnce text prompt ↔ ∀ message < traced.turn.accepted.length,
          some message ∉
            (retainTraced text candidates codexCompactionRetainedTokenBudget).map Prod.fst) := by
  obtain ⟨job, candidates, items, compacting, isCandidates, isItems, sameAccepted, isMarks⟩ :=
    marked.renders admits steps
  refine ⟨job, candidates, compacting, isCandidates, ?_⟩
  generalize (retainTraced text candidates codexCompactionRetainedTokenBudget).map Prod.fst = kept
    at isMarks
  have count : ∀ message < traced.turn.accepted.length,
      (items.map Prod.fst).count (some message) = kept.count (some message) + 1 := by
    intro message inRange
    have once : ((List.range traced.turn.accepted.length).map some).count (some message) = 1 := by
      rw [count_map_of_injective _ _ fun _ _ same => Option.some.inj same]
      exact count_eq_one_of_mem nodup_range (mem_range.mpr inRange)
    rw [isMarks, count_append, count_append, once]
    simp
  constructor
  · rintro ⟨_, isOthers, once⟩ message inRange retained
    obtain rfl := Except.ok.inj (isItems.symm.trans isOthers)
    have counted := count message inRange
    rw [once message (sameAccepted ▸ inRange)] at counted
    have some := count_pos_iff.mpr retained
    omega
  · intro never
    refine ⟨items, isItems, ?_⟩
    intro message inRange
    rw [sameAccepted] at inRange
    rw [count message inRange, count_eq_zero.mpr (never message inRange)]

end

end

theorem retained_iff {job : SourcedCompactionJob} (compacting : traced.turn.compacting = some job)
    {candidates : List TracedItem}
    (found : tracedCandidates text prompt (tracedEntries text job.modelContext traced.marks) =
      .ok candidates) :
    (∃ message < traced.turn.accepted.length, some message ∈
        (retainTraced text candidates codexCompactionRetainedTokenBudget).map Prod.fst) ↔
      traced.turn.accepted ≠ [] ∧
        ¬ BudgetUsedUp text prompt (providerTranscript text job.modelContext) := by
  obtain ⟨context, -, -, -⟩ := marked.instructed.job job compacting
  obtain ⟨before, start, tail, beforeMarks, isBranch, branch, isMarks, aligned, counts⟩ :=
    marked.path
  by_cases noMessage : traced.turn.accepted = []
  · simp [noMessage]
  · have someMessage : userMessages (tail.map (·.item)) ≠ [] := by
      intro isEmpty
      rw [isEmpty] at counts
      exact noMessage (eq_nil_of_length_eq_zero counts.symm)
    obtain ⟨older, entry, message, newer, rfl, isMessage, none⟩ := exists_last_message someMessage
    -- the branch and its marks up to the last message, and after it
    let first := before ++ start :: older
    let firstMarks := beforeMarks ++ messageMarks 0 (older.map (·.item))
    let last := (userMessages (older.map (·.item))).length
    let newerMarks := messageMarks (last + 1) (newer.map (·.item))
    have lastCount : traced.turn.accepted.length = last + 1 := by
      rw [← counts, map_append, userMessages_append, length_append, map_cons, isMessage]
      show last + ((userMessages (newer.map (·.item))).length + 1) = _
      rw [none]
      rfl
    have marksSplit : traced.marks = firstMarks ++ [some last] :: newerMarks := by
      rw [isMarks, map_append, messageMarks_append, map_cons, isMessage, append_assoc]
      show beforeMarks ++ (_ ++ [some (0 + last)] :: messageMarks (0 + last + 1) _) = _
      rw [Nat.zero_add, ← append_assoc]
    have sameLength : (first.map (providerEntry text)).length = firstMarks.length := by
      simp only [first, firstMarks, length_map, length_append, length_cons,
        messageMarks_length, aligned]
      omega
    have transcript : providerTranscript text job.modelContext = first.map (providerEntry text) ++
          providerEntry text entry :: newer.map (providerEntry text) := by
      rw [context, isBranch, providerTranscript_contextOf]
      simp [first]
    have entriesSplit : tracedEntries text job.modelContext traced.marks =
        (first.map (providerEntry text)).zip firstMarks ++
          (providerEntry text entry, [some last]) ::
            (newer.map (providerEntry text)).zip newerMarks := by
      rw [tracedEntries, transcript, marksSplit, zip_append sameLength, zip_cons_cons]
    rw [entriesSplit, tracedCandidates_append] at found
    obtain ⟨olderCandidates, -, found⟩ := bind_eq_ok.mp found
    obtain ⟨_, isRest, found⟩ := bind_eq_ok.mp found
    cases found
    obtain ⟨_, isOwn, isRest⟩ := bind_eq_ok.mp isRest
    obtain ⟨newerCandidates, isNewer, isRest⟩ := bind_eq_ok.mp isRest
    cases isRest
    have entryIs : providerEntry text entry =
        { item := .userMessage message
          providerReplay := (providerEntry text entry).providerReplay } := by
      rw [← providerEntry_user text isMessage]
    rw [entryIs, tracedEntryCandidates_user] at isOwn
    cases isOwn
    -- what the adapter finds after the last message
    have afterLast : afterLastMessage (providerTranscript text job.modelContext) =
        newer.map (providerEntry text) := by
      rw [transcript]
      apply afterLastMessage_eq
      · rw [providerEntry_isUserMessage, isMessage]
        rfl
      · intro other mem
        obtain ⟨node, inNewer, rfl⟩ := mem_map.mp mem
        rw [providerEntry_isUserMessage]
        exact isUserMessage_of_none none node.item (mem_map_of_mem inNewer)
    have newerPlain : retainedCandidates text prompt (newer.map (providerEntry text)) =
        .ok (newerCandidates.map Prod.snd) := by
      have same := tracedCandidates_snd text prompt
        ((newer.map (providerEntry text)).zip newerMarks)
      have enough : (newer.map (providerEntry text)).length ≤ newerMarks.length := by
        simp only [newerMarks, messageMarks_length, length_map, le_refl]
      rw [isNewer, map_fst_zip enough] at same
      exact same.symm
    have unmarked : ∀ item ∈ newerCandidates, item.1 = Option.none := by
      apply tracedCandidates_unmarked text prompt _ isNewer
      intro traced mem
      exact messageMarks_of_none (last + 1) none traced.2 (of_mem_zip mem).2
    have left : budgetLeft (fun item => compactItemTextTokens text item.2) truncateTraced
        newerCandidates.reverse codexCompactionRetainedTokenBudget =
          budgetLeft (compactItemTextTokens text) truncateCompactionMessage
            (newerCandidates.map Prod.snd).reverse codexCompactionRetainedTokenBudget := by
      rw [← map_reverse]
      exact Library.budgetLeft_map Prod.snd truncateTraced_snd _ _
    constructor
    · rintro ⟨_, _, isKept⟩
      refine ⟨noMessage, ?_⟩
      rintro ⟨_, isOthers, usedUp⟩
      rw [afterLast, newerPlain] at isOthers
      cases isOthers
      obtain ⟨item, inRetained, isMark⟩ := mem_map.mp isKept
      have split : olderCandidates ++ (some last, userMessageItem message) :: newerCandidates =
          (olderCandidates ++ [(some last, userMessageItem message)]) ++ newerCandidates := by simp
      have isRetained : item ∈ retainTraced text
          (olderCandidates ++ [(some last, userMessageItem message)] ++ newerCandidates)
            codexCompactionRetainedTokenBudget := split ▸ inRetained
      rw [retainTraced_exhausted unmarked (left.trans usedUp) item isRetained] at isMark
      cases isMark
    · rintro ⟨-, open_⟩
      have reached : 0 < budgetLeft (fun item => compactItemTextTokens text item.2) truncateTraced
          newerCandidates.reverse codexCompactionRetainedTokenBudget := by
        rw [left, Nat.pos_iff_ne_zero]
        intro usedUp
        exact open_ ⟨_, by rw [afterLast, newerPlain], usedUp⟩
      have retains : ∃ item ∈ retainTraced text
          (olderCandidates ++ (some last, userMessageItem message) :: newerCandidates)
            codexCompactionRetainedTokenBudget, item.1 = some last := retainTraced_reached reached
      obtain ⟨item, inRetained, isMark⟩ := retains
      exact ⟨last, by omega, mem_map.mpr ⟨item, inRetained, isMark⟩⟩

end

end TracedTurn.Marked

/-- For a compaction of an open turn, however often it has been compacted before: what is
rendered has each message of the turn once if and only if the turn has no message, or what
the model has sent to other agents after the last one uses up the budget. -/
theorem TracedTurn.messages_occur_once_iff {text : ProviderText} {prompt : PromptSections}
    {turnId : TurnId} {startedAtMs : Nat} {traced after : TracedTurn}
    (reaches : (TracedTurn.runs text prompt turnId startedAtMs).Reaches traced)
    {summary : String} {responseReplay : List ProviderReplayItem} {ids : Nat → EntryId}
    {rootTimestampMs : Nat}
    (admits : traced.Admits text prompt turnId
      (.complete summary responseReplay ids rootTimestampMs))
    (steps : traced.step text prompt turnId
      (.complete summary responseReplay ids rootTimestampMs) = some after) :
    ∃ job, traced.turn.compacting = some job ∧
      (after.OccursOnce text prompt ↔
        traced.turn.accepted = [] ∨
          BudgetUsedUp text prompt (providerTranscript text job.modelContext)) := by
  have marked := TracedTurn.Marked.of_reaches reaches
  obtain ⟨job, _, compacting, found, once⟩ := marked.occursOnce_iff admits steps
  refine ⟨job, compacting, ?_⟩
  have retained := marked.retained_iff compacting found
  rw [once]
  constructor
  · intro never
    by_contra apart
    rw [not_or] at apart
    obtain ⟨message, inRange, isRetained⟩ := retained.mpr apart
    exact never message inRange isRetained
  · intro usedUp message inRange isRetained
    obtain ⟨someMessage, left⟩ := retained.mp ⟨message, inRange, isRetained⟩
    rcases usedUp with none | usedUp
    · exact someMessage none
    · exact left usedUp

namespace TracedTurn

def sampleMessage : UserMessage := .text "build"

def sampleCheckpoint : Json :=
  .object [("encrypted_content", .string "opaque"), ("type", .string "compaction")]

def sampleMessageText : String :=
  "\x7b\"content\":[\x7b\"text\":\"build\",\"type\":\"input_text\"\x7d],\"role\":\"user\",\"type\":\"message\"\x7d"

def sampleCheckpointText : String :=
  "\x7b\"encrypted_content\":\"opaque\",\"type\":\"compaction\"\x7d"

/-- The texts of the two items of the run below. -/
def sampleText : ProviderText where
  toText item :=
    if item.getStr "type" = some "message" then sampleMessageText else sampleCheckpointText
  fromText encoded :=
    if encoded = sampleMessageText then some (userMessageItem sampleMessage)
    else if encoded = sampleCheckpointText then some sampleCheckpoint
    else none
  observationText _ := none
  limitToolOutput output := output

def samplePrompt : PromptSections := { stablePrefix := none, dynamicContext := none }

def sampleOpened : TracedTurn where
  turn :=
    { store := ({} : TranscriptStore).appendItem (.turnStarted 1) []
        { id := "start", timestampMs := 40 }
      accepted := []
      compacting := none }
  marks := [[]]

def sampleAsk : CompactedTurnStep :=
  .append (.userMessage sampleMessage) [] { id := "build", timestampMs := 50 }

def sampleBlock : CompactedTurnStep :=
  .block "session" 1 "model" "first"
    { actionRowId := "compaction", attemptId := "attempt", tokensBefore := none, trigger := .manual }

def sampleComplete : CompactedTurnStep :=
  .complete "compacted" [newReplayItem sampleText sampleCheckpoint]
    (fun draw => (stampsFrom 7 draw).id) 60

def sampleAfter (traced : TracedTurn) (label : CompactedTurnStep) : TracedTurn :=
  (traced.step sampleText samplePrompt 1 label).getD traced

def sampleAsked : TracedTurn := sampleAfter sampleOpened sampleAsk

def sampleBlocked : TracedTurn := sampleAfter sampleAsked sampleBlock

def sampleInstalled : TracedTurn := sampleAfter sampleBlocked sampleComplete

theorem sampleBlocked_reached : (runs sampleText samplePrompt 1 40).Reaches sampleBlocked := by
  have opened : (runs sampleText samplePrompt 1 40).Reaches sampleOpened :=
    .start ⟨⟨{}, "start", ⟨.nil, nofun⟩, by simp [entryIds], rfl⟩, rfl⟩
  have asks : sampleOpened.turn.Admits 1 sampleAsk := ⟨trivial, by decide⟩
  have asked : (runs sampleText samplePrompt 1 40).Reaches sampleAsked :=
    .next opened ⟨⟨asks, trivial⟩, rfl⟩
  have blocks : sampleAsked.turn.Admits 1 sampleBlock := trivial
  exact .next asked ⟨⟨blocks, trivial⟩, rfl⟩

theorem sampleComplete_admitted :
    sampleBlocked.Admits sampleText samplePrompt 1 sampleComplete := by
  constructor
  · exact stampsFrom_fresh (by decide +kernel)
  · intro job compacting items isItems
    cases compacting
    cases isItems
    intro item mem
    rcases mem_pair.mp mem with rfl | rfl <;> rfl

theorem sampleComplete_steps :
    sampleBlocked.step sampleText samplePrompt 1 sampleComplete = some sampleInstalled := rfl

theorem sample_messages_occur_once_iff :
    ∃ job, sampleBlocked.turn.compacting = some job ∧
      (sampleInstalled.OccursOnce sampleText samplePrompt ↔
        sampleBlocked.turn.accepted = [] ∨
          BudgetUsedUp sampleText samplePrompt
            (providerTranscript sampleText job.modelContext)) :=
  messages_occur_once_iff sampleBlocked_reached sampleComplete_admitted sampleComplete_steps

/-- A turn with one message: after its compaction the message is in the input twice. -/
theorem sample_message_occurs_twice :
    (runs sampleText samplePrompt 1 40).Reaches sampleBlocked ∧
      sampleBlocked.Admits sampleText samplePrompt 1 sampleComplete ∧
        sampleBlocked.step sampleText samplePrompt 1 sampleComplete = some sampleInstalled ∧
          ¬ sampleInstalled.OccursOnce sampleText samplePrompt := by
  refine ⟨sampleBlocked_reached, sampleComplete_admitted, sampleComplete_steps, ?_⟩
  rintro ⟨items, isItems, once⟩
  have marks : items.map Prod.fst = [some 0, none, some 0] := by
    have rendered : (tracedItems sampleText samplePrompt
        (tracedEntries sampleText sampleInstalled.turn.store.modelContext
          sampleInstalled.marks)).toOption.map (List.map Prod.fst) =
        some [some 0, none, some 0] := by decide +kernel
    rw [isItems] at rendered
    exact Option.some.inj rendered
  have twice := once 0 (by decide)
  rw [marks] at twice
  exact absurd twice (by decide)

end TracedTurn

end PiRelay.Runtime
