import Mathlib.Algebra.Ring.Nat
import PiRelay.AgentProvider.OpenAiTranscript
import PiRelay.Library.Retention

/-! What an OpenAI compaction keeps of its input. Beside the native checkpoint the replay of
the new root holds the messages of the user, and those of other agents, that fit into a
budget, the newest first. -/
namespace PiRelay.AgentProvider

open AgentVocab Session List Option
open Library (Json bind_eq_ok forM_eq_ok retainNewest)

def codexCompactionRetainedTokenBudget : Nat := 64000

def codexCompactionMaxAgentMessageTokens : Nat := 10000

def approxTokensFromByteCount (bytes : Nat) : Nat := (bytes + 3) / 4

/-- The longest beginning of at most the given number of bytes. -/
def takeBytes : Nat → List Char → List Char
  | _, [] => []
  | bytes, char :: rest =>
    if char.utf8Size ≤ bytes then char :: takeBytes (bytes - char.utf8Size) rest else []

def truncateMiddleToApproxTokens (text : String) (maxTokens : Nat) : String :=
  let maxBytes := maxTokens * 4
  if text.utf8ByteSize ≤ maxBytes then text
  else
    let start := String.ofList (takeBytes (maxBytes / 2) text.toList)
    let ending := String.ofList (takeBytes (maxBytes - maxBytes / 2) text.toList.reverse).reverse
    let removedTokens := approxTokensFromByteCount
      (text.utf8ByteSize - ending.utf8ByteSize - start.utf8ByteSize)
    start ++ "…" ++ toString removedTokens ++ " tokens truncated…" ++ ending

/-- The parts that stay, and the text of the last one cut to what is left. -/
def truncateParts : List Json → Nat → List Json
  | [], _ => []
  | part :: rest, remaining =>
    match part.getStr "text" with
    | none => part :: truncateParts rest remaining
    | some original =>
      if remaining = 0 then truncateParts rest remaining
      else
        let tokens := approxTokensFromByteCount original.utf8ByteSize
        if tokens ≤ remaining then part :: truncateParts rest (remaining - tokens)
        else
          part.set "text" (.string (truncateMiddleToApproxTokens original remaining))
            :: truncateParts rest 0

def truncateCompactionMessage (item : Json) (maxTokens : Nat) : Option Json :=
  if item.getStr "type" = some "message" then
    (item.getArray "content").bind fun content =>
      let content := truncateParts content maxTokens
      if content.isEmpty then none else some (item.set "content" (.array content))
  else none

def contentTokens (content : List Json) : Nat :=
  (content.filterMap fun part =>
    (part.getStr "text").map fun text => approxTokensFromByteCount text.utf8ByteSize).sum

variable (text : ProviderText) (prompt : PromptSections)

def compactItemTextTokens (item : Json) : Nat :=
  if item.getStr "type" = some "agent_message" then
    approxTokensFromByteCount (text.toText item).utf8ByteSize
  else contentTokens ((item.getArray "content").getD [])

def isRetainedCompactionInputItem (item : Json) : Bool :=
  match item.getStr "type" with
  | some "message" => item.getStr "role" == some "user"
  | some "agent_message" =>
    decide (compactItemTextTokens text item ≤ codexCompactionMaxAgentMessageTokens)
  | _ => false

def truncateRetainedCompactionInput (items : List Json) (maxTokens : Nat) : List Json :=
  (retainNewest (compactItemTextTokens text) truncateCompactionMessage items.reverse
    maxTokens).reverse

/-- The entries whose items may be retained. -/
def carriesMessages : TranscriptItem → Bool
  | .userMessage _ | .assistantMessage _ | .compactionSummary _ => true
  | _ => false

def entryCandidates (entry : ModelContextEntry) : ProviderResult (List Json) :=
  if carriesMessages entry.item then do
    let items ← transcriptToResponseItems text prompt [entry]
    .ok (items.filter (isRetainedCompactionInputItem text))
  else .ok []

def retainedCandidates : List ModelContextEntry → ProviderResult (List Json)
  | [] => .ok []
  | entry :: rest => do
    let candidates ← entryCandidates text prompt entry
    let later ← retainedCandidates rest
    .ok (candidates ++ later)

def retainedCompactionInput (transcript : List ModelContextEntry) : ProviderResult (List Json) := do
  let candidates ← retainedCandidates text prompt transcript
  .ok (truncateRetainedCompactionInput text candidates codexCompactionRetainedTokenBudget)

def newReplayItem (item : Json) : ProviderReplayItem where
  provider := .openAi
  rawJson := text.toText item
  display := none

/-- The items of the new root: what is retained, and the one checkpoint of the response. -/
def compactV2Items (retainedInput : List Json) (responseReplay : List ProviderReplayItem) :
    ProviderResult (List Json) := do
  let items ← readReplay text responseReplay
  match items.filter isOpenaiCompactionItem with
  | [compaction] => .ok (retainedInput ++ [compaction])
  | others =>
    refuse ("OpenAI compaction stream expected exactly one compaction item, found "
      ++ toString others.length)

theorem truncateParts_ne_nil {content : List Json} {remaining : Nat} (reached : 0 < remaining)
    (costly : remaining < contentTokens content) : truncateParts content remaining ≠ [] := by
  cases content with
  | nil => simp [contentTokens] at costly
  | cons part =>
    rw [truncateParts]
    cases part.getStr "text" with
    | none => simp
    | some =>
      simp only [Nat.ne_of_gt reached, if_false]
      split <;> simp

variable {item : Json} {retained items : List Json}

theorem truncateCompactionMessage_type {shortened : Json} {limit : Nat}
    (shortens : truncateCompactionMessage item limit = some shortened) :
    shortened.get "type" = item.get "type" := by
  rw [truncateCompactionMessage] at shortens
  split at shortens
  · obtain ⟨_, -, isShortened⟩ := bind_eq_some_iff.mp shortens
    simp only at isShortened
    split at isShortened
    · cases isShortened
    · cases isShortened
      exact Json.get_set_of_ne (by decide) _ _
  · cases shortens

theorem truncate_userMessage (message : UserMessage) {left : Nat} (reached : 0 < left)
    (costly : left < max (compactItemTextTokens text (userMessageItem message)) 1) :
    ∃ shortened, truncateCompactionMessage (userMessageItem message) left = some shortened := by
  have isMessage : (userMessageItem message).getStr "type" = some "message" := rfl
  have content : (userMessageItem message).getArray "content" =
      some (responsesUserContent message) := rfl
  have tokens : compactItemTextTokens text (userMessageItem message) =
      contentTokens (responsesUserContent message) := by
    rfl
  have stays : (truncateParts (responsesUserContent message) left).isEmpty = false := by
    rw [isEmpty_eq_false_iff]
    apply truncateParts_ne_nil reached
    omega
  rw [truncateCompactionMessage, if_pos isMessage, content, bind_some]
  simp only [stays]
  exact ⟨_, rfl⟩

theorem retained_type (retained : isRetainedCompactionInputItem text item) :
    item.getStr "type" = some "message" ∨ item.getStr "type" = some "agent_message" := by
  rw [isRetainedCompactionInputItem] at retained
  split at retained
  · rename_i isMessage
    exact .inl isMessage
  · rename_i isAgentMessage
    exact .inr isAgentMessage
  · cases retained

theorem retainedCandidates_type {transcript : List ModelContextEntry} {candidates : List Json}
    (found : retainedCandidates text prompt transcript = .ok candidates) :
    ∀ item ∈ candidates, isRetainedCompactionInputItem text item := by
  induction transcript generalizing candidates with
  | nil =>
    cases found
    intro item mem
    cases mem
  | cons _ _ ih =>
    obtain ⟨_, isFirst, found⟩ := bind_eq_ok.mp found
    obtain ⟨_, isLater, found⟩ := bind_eq_ok.mp found
    cases found
    intro item mem
    rcases mem_append.mp mem with inFirst | inLater
    · rw [entryCandidates] at isFirst
      split at isFirst
      · obtain ⟨_, -, isFirst⟩ := bind_eq_ok.mp isFirst
        cases isFirst
        exact (mem_filter.mp inFirst).2
      · cases isFirst
        cases inFirst
    · exact ih isLater item inLater

theorem retainedCompactionInput_type {transcript : List ModelContextEntry}
    (retains : retainedCompactionInput text prompt transcript = .ok retained) :
    ∀ item ∈ retained,
      item.getStr "type" = some "message" ∨ item.getStr "type" = some "agent_message" := by
  obtain ⟨_, isCandidates, retains⟩ := bind_eq_ok.mp retains
  cases retains
  intro item mem
  rw [truncateRetainedCompactionInput, mem_reverse] at mem
  obtain ⟨candidate, inCandidates, isItem⟩ := Library.mem_retainNewest mem
  have isRetained := retainedCandidates_type text prompt isCandidates candidate
    (mem_reverse.mp inCandidates)
  have sameType : item.getStr "type" = candidate.getStr "type" := by
    rcases isItem with rfl | ⟨limit, shortens⟩
    · rfl
    · rw [Json.getStr, truncateCompactionMessage_type shortens]
      rfl
  rw [sameType]
  exact retained_type text isRetained

/-- An item whose type a replay can have. -/
def HasType (item : Json) : Prop :=
  ∃ itemType : String, item.getStr "type" = some itemType ∧ itemType.isEmpty = false

theorem openaiReplayItemType_of_hasType (typed : HasType item) (context : String) :
    ∃ itemType, openaiReplayItemType item context = .ok itemType := by
  obtain ⟨itemType, isType, some⟩ := typed
  have isObject := Json.isObject_of_get (Json.getStr_eq_some isType)
  refine ⟨itemType, ?_⟩
  rw [openaiReplayItemType, if_pos isObject, isType, bind_some, nonempty, some]
  rfl

theorem root_renders (readsBack : ∀ item ∈ items, text.fromText (text.toText item) = some item)
    (typed : ∀ item ∈ items, HasType item) (one : items.countP isOpenaiCompactionItem = 1)
    (summary : CompactionSummary) :
    entryResponseItems text prompt
        { item := .compactionSummary summary, providerReplay := items.map (newReplayItem text) } =
      .ok items := by
  have someItems : items.isEmpty = false := by
    cases items with
    | nil => cases one
    | cons => rfl
  have types : items.forM requireReplayItemType = .ok () := by
    apply forM_eq_ok.mpr
    intro item mem
    obtain ⟨_, isType⟩ := openaiReplayItemType_of_hasType (typed item mem)
      "persisted OpenAI compaction replay item"
    rw [requireReplayItemType, isType]
    rfl
  have valid : validateOpenaiCompactionReplay items = .ok () := by
    rw [validateOpenaiCompactionReplay, someItems, types, one]
    rfl
  have replay : openaiReplayItems text { item := .compactionSummary summary
                                         providerReplay := items.map (newReplayItem text) } true =
      .ok items := by
    rw [openaiReplayItems, providerReplayValuesFor_written text (by simp [newReplayItem]) readsBack]
    rfl
  rw [entryResponseItems, replay]
  show (if items.isEmpty then _ else (validateOpenaiCompactionReplay items >>= fun _ =>
    .ok items)) = .ok items
  rw [someItems, valid]
  rfl

theorem compactV2Items_eq {responseReplay : List ProviderReplayItem}
    (compacts : compactV2Items text retained responseReplay = .ok items) :
    ∃ compaction, items = retained ++ [compaction] ∧ isOpenaiCompactionItem compaction := by
  obtain ⟨received, -, compacts⟩ := bind_eq_ok.mp compacts
  split at compacts
  · rename_i compaction isOne
    cases compacts
    refine ⟨compaction, rfl, ?_⟩
    have mem : compaction ∈ received.filter isOpenaiCompactionItem := by
      rw [isOne]
      exact (.head _)
    exact (mem_filter.mp mem).2
  · cases compacts

theorem compactV2Items_valid {responseReplay : List ProviderReplayItem} (types : ∀ item ∈ retained,
      item.getStr "type" = some "message" ∨ item.getStr "type" = some "agent_message")
    (compacts : compactV2Items text retained responseReplay = .ok items) :
    (∀ item ∈ items, HasType item) ∧ items.countP isOpenaiCompactionItem = 1 := by
  obtain ⟨_, rfl, isCompaction⟩ := compactV2Items_eq text compacts
  constructor
  · intro item mem
    rcases mem_append.mp mem with inRetained | isLast
    · rcases types item inRetained with isType | isType <;> exact ⟨_, isType, by decide⟩
    · obtain rfl := mem_singleton.mp isLast
      rw [isOpenaiCompactionItem, Bool.or_eq_true, beq_iff_eq, beq_iff_eq] at isCompaction
      rcases isCompaction with isType | isType <;> exact ⟨_, isType, by decide⟩
  · have none : retained.countP isOpenaiCompactionItem = 0 := by
      rw [countP_eq_zero]
      intro item mem
      rw [isOpenaiCompactionItem]
      rcases types item mem with isType | isType <;> rw [isType] <;> decide
    rw [countP_append, none, countP_singleton, isCompaction]
    rfl

end PiRelay.AgentProvider
