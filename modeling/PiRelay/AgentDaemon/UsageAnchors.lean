import PiRelay.AgentDaemon.InheritedResult
import PiRelay.AgentProvider.AnthropicStream
import Mathlib.Data.List.MinMax
import Mathlib.Data.Prod.Lex

/-! The estimate of the tokens of a model input. It starts from the usage that was reported for an
earlier request on the path, and adds what has been written since. -/
namespace PiRelay.Runtime

open AgentVocab Session Store List Option
open AgentProvider (ProviderUsage)
open Library (ParentMap)

/-- A model action as `apply_model_response` records it. -/
structure ModelActionRow where
  contextLeafId : Option EntryId
  stopReason : AgentProvider.ModelStopReason
  usage : Option ProviderUsage
  toolsetFingerprint : String
  updatedAt : Nat
  createdAt : Nat
  /-- The entry of the assistant message it brought. -/
  produced : Option EntryId

def ModelActionRow.status (action : ModelActionRow) : ActionStatus :=
  if action.stopReason = .complete then .completed else .error

structure TokenUsageEstimate where
  baseTokens : Nat
  suffixStartLeafId : Option EntryId
  suffixEntries : List TranscriptStorageNode

def TokenUsageEstimate.withEstimatedSuffixTokens (usage : TokenUsageEstimate)
    (estimatedSuffixTokens : Nat) : Nat :=
  AgentProvider.saturatingAdd usage.baseTokens estimatedSuffixTokens

variable (entries : List TranscriptStorageNode)

def storageTree : ParentMap EntryId TranscriptStorageNode where
  lookup := findEntry entries
  parent := (·.parentId)

/-- All that the leaf stands below is below an entry. -/
def pathInvalid (entries path : List TranscriptStorageNode) : Bool :=
  !path.isEmpty && path.all fun entry => (entry.parentId.bind (findEntry entries)).isSome

variable (path : List TranscriptStorageNode)

/-- An action that has reported usage, and how far above the leaf its context ends. -/
def usageDepth (toolsetFingerprint : String)
    (action : ModelActionRow) : Option (ModelActionRow × Nat) := do
  let usage ← action.usage
  if [ActionStatus.completed, .error].contains action.status &&
      action.toolsetFingerprint == toolsetFingerprint &&
      (usage.totalTokens.isSome || usage.inputTokens.isSome) then
    let depth ← path.findIdx? (some ·.id == action.contextLeafId)
    return (action, depth)
  else none

variable (actions : List ModelActionRow)

def latestUsage (toolsetFingerprint : String) : Option (ModelActionRow × Nat) :=
  (actions.filterMap (usageDepth path toolsetFingerprint)).argmin fun (action, depth) =>
    toLex (depth, toLex (OrderDual.toDual action.updatedAt, OrderDual.toDual action.createdAt))

def reportedTokens (usage : ProviderUsage) : Nat :=
  (usage.totalTokens <|> usage.inputTokens.bind (fun input =>
    usage.outputTokens.map (AgentProvider.saturatingAdd input)) <|> usage.inputTokens).getD 0

def latestModelTokenUsageEstimate (leafId : EntryId) (toolsetFingerprint : String) :
    Except String (Option (ModelActionRow × TokenUsageEstimate)) :=
  let path := (storageTree entries).walk entries.length (some leafId)
  if pathInvalid entries path then .error "transcript ancestry contains a cycle"
  else .ok do
    let (action, depth) ← latestUsage path actions toolsetFingerprint
    let baseTokens := (action.usage.map reportedTokens).getD 0
    if baseTokens = 0 then none
    else some (action, ⟨baseTokens, action.contextLeafId, (path.take depth).reverse⟩)

def suffixAfterFirstModelGeneratedItem : List TranscriptStorageNode :=
  entries.drop (((entries.findIdx? (isAssistantMessage ·.item)).map (· + 1)).getD 0)

/-- What is counted of the entries is estimated by `transcriptTokens`; where there is no anchor,
the whole input is estimated. -/
def estimateCodexModelInputTokensFromUsageAnchor (contextLeafId : Option EntryId)
    (toolsetFingerprint : String)
    (transcriptTokens : List TranscriptStorageNode → Nat) (localHeuristic : Nat) :
    Except String Nat :=
  match contextLeafId with
  | none => .ok localHeuristic
  | some leafId => do
    match ← latestModelTokenUsageEstimate entries actions leafId toolsetFingerprint with
    | none => return localHeuristic
    | some (_, usage) =>
      let suffix := suffixAfterFirstModelGeneratedItem usage.suffixEntries
      return usage.withEstimatedSuffixTokens (transcriptTokens suffix)

section

variable (action : ModelActionRow)

/-- An assistant message that an action brought is its entry. -/
def ModelActionRow.RecordedIn : Prop :=
  ∀ id ∈ action.produced, (action.stopReason = .complete ∨ action.stopReason = .maxOutputTokens) ∧
    ∃ entry, findEntry entries id = some entry ∧ isAssistantMessage entry.item

/-- What was written on the path since the request of an action. -/
def entriesAfter : List TranscriptStorageNode :=
  (path.takeWhile (some ·.id != action.contextLeafId)).reverse

/-- What the usage of an action does not cover. -/
def uncovered : List TranscriptStorageNode :=
  (entriesAfter path action).filter fun entry => some entry.id ≠ action.produced

/-- No assistant message was written since, or the message of the action came first. -/
def AnswerFirst : Prop :=
  (∀ entry ∈ entriesAfter path action, ¬ isAssistantMessage entry.item) ∨
    ∃ first ∈ (entriesAfter path action).head?, some first.id = action.produced

end

variable {entries path suffix : List TranscriptStorageNode} {actions : List ModelActionRow}
  {leafId : EntryId} {toolsetFingerprint : String} {action : ModelActionRow}
  {usage : TokenUsageEstimate} {produced : Option EntryId}

theorem suffixAfterFirst_iff (distinct : (suffix.map (·.id)).Nodup)
    (own : ∀ entry ∈ suffix, some entry.id = produced → isAssistantMessage entry.item) :
    suffixAfterFirstModelGeneratedItem suffix = suffix.filter (fun entry => some entry.id ≠ produced) ↔
      (∀ entry ∈ suffix, ¬ isAssistantMessage entry.item) ∨
        ∃ first ∈ suffix.head?, some first.id = produced := by
  cases suffix with
  | nil => exact iff_of_true rfl (.inl nofun)
  | cons first rest =>
    obtain ⟨unused, -⟩ := nodup_cons.mp distinct
    have fresh : first ∉ rest := fun mem => unused (mem_map_of_mem mem)
    have kept : some first.id ≠ produced →
        first ∈ (first :: rest).filter (fun entry => some entry.id ≠ produced) := by
      intro other
      simpa using other
    constructor
    · intro same
      by_cases isOwn : some first.id = produced
      · exact .inr ⟨first, rfl, isOwn⟩
      · left
        have counted := same ▸ kept isOwn
        rw [suffixAfterFirstModelGeneratedItem] at counted
        cases found : (first :: rest).findIdx? (isAssistantMessage ·.item) with
        | none => simpa using findIdx?_eq_none_iff.mp found
        | some index =>
          rw [found, map_some, getD_some, drop_succ_cons] at counted
          exact absurd (mem_of_mem_drop counted) fresh
    · rintro (noAnswer | ⟨_, isFirst, isOwn⟩)
      · have absent : (first :: rest).findIdx? (isAssistantMessage ·.item) = none := by
          simpa [findIdx?_eq_none_iff] using noAnswer
        rw [suffixAfterFirstModelGeneratedItem, absent]
        symm
        apply filter_eq_self.mpr
        intro entry mem
        exact decide_eq_true fun isOwn => noAnswer entry mem (own entry mem isOwn)
      · cases isFirst
        rw [suffixAfterFirstModelGeneratedItem, findIdx?_cons, own first (.head _) isOwn]
        rw [filter_cons_of_neg (by simpa using isOwn)]
        symm
        apply filter_eq_self.mpr
        intro entry mem
        apply decide_eq_true
        intro same
        have isFirst : entry.id = first.id := Option.some.inj (same.trans isOwn.symm)
        exact unused (mem_map.mpr ⟨entry, mem, isFirst⟩)

theorem latestUsage_mem {depth : Nat}
    (latest : latestUsage path actions toolsetFingerprint = some (action, depth)) :
    action ∈ actions ∧ path.findIdx? (some ·.id == action.contextLeafId) = some depth := by
  obtain ⟨listed, mem, isUsage⟩ := mem_filterMap.mp (argmin_mem latest)
  obtain ⟨usage, -, isUsage⟩ := bind_eq_some_iff.mp isUsage
  split at isUsage
  · obtain ⟨_, isDepth, isPair⟩ := bind_eq_some_iff.mp isUsage
    cases isPair
    exact ⟨mem, isDepth⟩
  · cases isUsage

/-- The estimate adds the tokens of what its anchor leaves to count. That is what the request and
the answer do not cover where and only where the answer comes first of what was written since. -/
theorem usage_anchor_covers_iff (climbs : (storageTree entries).Climbs (some leafId) path)
    (recorded : ∀ action ∈ actions, action.RecordedIn entries)
    (anchored : latestModelTokenUsageEstimate entries actions leafId toolsetFingerprint =
      .ok (some (action, usage))) :
    action ∈ actions ∧
      (∀ transcriptTokens localHeuristic,
        estimateCodexModelInputTokensFromUsageAnchor entries actions (some leafId)
          toolsetFingerprint transcriptTokens localHeuristic =
            .ok (usage.withEstimatedSuffixTokens
              (transcriptTokens (suffixAfterFirstModelGeneratedItem usage.suffixEntries)))) ∧
      (suffixAfterFirstModelGeneratedItem usage.suffixEntries = uncovered path action ↔
        AnswerFirst path action) := by
  have found : ∀ entry ∈ path, findEntry entries entry.id = some entry :=
    climbs.lookup_of_mem fun _ _ => findEntry_id
  have whole := climbs.walk_eq (climbs.length_le fun entry mem => findEntry_mem (found entry mem))
  refine and_left_comm.mp ⟨fun transcriptTokens localHeuristic => ?_, ?_⟩
  · rw [estimateCodexModelInputTokensFromUsageAnchor, anchored]
    rfl
  rw [latestModelTokenUsageEstimate, whole] at anchored
  dsimp only at anchored
  split at anchored
  · cases anchored
  · obtain ⟨⟨_, depth⟩, latest, isUsage⟩ := bind_eq_some_iff.mp (Except.ok.inj anchored)
    dsimp only at isUsage
    split at isUsage
    · cases isUsage
    · cases isUsage
      obtain ⟨listed, isDepth⟩ := latestUsage_mem latest
      have after : (path.take depth).reverse = entriesAfter path action := by
        obtain ⟨-, rfl⟩ := findIdx?_eq_some_iff_findIdx_eq.mp isDepth
        simp [entriesAfter, takeWhile_eq_take_findIdx_not, bne]
      have part : ∀ entry ∈ entriesAfter path action, entry ∈ path := fun entry mem =>
        (takeWhile_sublist _).mem (mem_reverse.mp mem)
      refine ⟨listed, ?_⟩
      rw [after]
      apply suffixAfterFirst_iff
      · have ids : (path.map (·.id)).Nodup := climbs.names_nodup fun _ _ => findEntry_id
        rw [entriesAfter, map_reverse, nodup_reverse]
        exact ids.sublist ((takeWhile_sublist _).map _)
      · intro entry mem isOwn
        obtain ⟨-, _, isEntry, isAnswer⟩ := recorded action listed entry.id isOwn.symm
        cases (found entry (part entry mem)).symm.trans isEntry
        exact isAnswer

/-- A turn whose request was refused, one that was answered with other tools, and a new one. -/
def refusedThenAnswered : List TranscriptStorageNode :=
  [⟨"first", none, 1, .turnStarted 1, []⟩,
    ⟨"asked", some "first", 2, .userMessage ⟨[], false⟩, []⟩,
    ⟨"refused", some "asked", 3, .turnFinished 1 .crashed, []⟩,
    ⟨"second", some "refused", 4, .turnStarted 2, []⟩,
    ⟨"again", some "second", 5, .userMessage ⟨[], false⟩, []⟩,
    ⟨"answer", some "again", 6, .assistantMessage ⟨[]⟩, []⟩,
    ⟨"finished", some "answer", 7, .turnFinished 2 .graceful, []⟩,
    ⟨"third", some "finished", 8, .turnStarted 3, []⟩,
    ⟨"more", some "third", 9, .userMessage ⟨[], false⟩, []⟩]

def refusedAction : ModelActionRow :=
  ⟨some "asked", .refusal, some { totalTokens := some 5 }, "tools", 1, 1, none⟩

def answeredAction : ModelActionRow :=
  ⟨some "again", .complete, some { totalTokens := some 9 }, "other tools", 2, 2, some "answer"⟩

theorem refusedThenAnswered_climbs :
    (storageTree refusedThenAnswered).Climbs (some "more") refusedThenAnswered.reverse :=
  .node rfl (.node rfl (.node rfl (.node rfl (.node rfl (.node rfl (.node rfl (.node rfl
    (.node rfl .root))))))))

theorem refusedThenAnswered_recorded :
    ∀ action ∈ [refusedAction, answeredAction], action.RecordedIn refusedThenAnswered := by
  intro action mem id produced
  rcases mem_pair.mp mem with rfl | rfl
  · cases produced
  · cases produced
    exact ⟨.inl rfl, _, rfl, rfl⟩

theorem usage_anchor_covers_iff_answered : ∃ usage : TokenUsageEstimate, usage.baseTokens = 9 ∧
    suffixAfterFirstModelGeneratedItem usage.suffixEntries =
      uncovered refusedThenAnswered.reverse answeredAction := by
  have anchored : latestModelTokenUsageEstimate refusedThenAnswered [refusedAction, answeredAction]
    "more" "other tools" = .ok (some (answeredAction, _)) := rfl
  have covers := usage_anchor_covers_iff refusedThenAnswered_climbs refusedThenAnswered_recorded
    anchored
  exact ⟨_, rfl, covers.2.2.mpr (.inr ⟨_, rfl, rfl⟩)⟩

/-- With the tools of the refused request its usage is the anchor. Neither the message that was
sent again nor the answer to it is counted. -/
theorem refused_anchor_uncounted : ¬ ∀ entries actions leafId path toolsetFingerprint action usage,
    (storageTree entries).Climbs (some leafId) path →
    (∀ action ∈ actions, action.RecordedIn entries) →
    latestModelTokenUsageEstimate entries actions leafId toolsetFingerprint =
      .ok (some (action, usage)) →
    suffixAfterFirstModelGeneratedItem usage.suffixEntries = uncovered path action := by
  intro covers
  have same := covers _ _ _ _ "tools" refusedAction _ refusedThenAnswered_climbs
    refusedThenAnswered_recorded rfl
  exact absurd (congrArg List.length same) (by decide)

end PiRelay.Runtime
