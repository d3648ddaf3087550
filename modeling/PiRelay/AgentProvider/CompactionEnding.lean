import Mathlib.Data.List.DropRight
import PiRelay.AgentProvider.AnthropicRequest

/-! How the messages of a compaction request end: with a message of the user that answers every
call of the last message of the assistant. -/
namespace PiRelay.AgentProvider

open AgentVocab Session List
open Library (Json bind_eq_ok)
open Library.Json (withoutItems)

def hasRole (role : String) (message : Json) : Bool := message.getStr "role" == some role

/-- The calls of a message, each once. -/
def requiredToolResults (message : Json) : List String :=
  (((messageBlocks message).filter isToolUse).filterMap (·.getStr "id")).eraseDups

def syntheticToolResult (toolUseId : String) : Json :=
  .object
    [("type", .string "tool_result"), ("tool_use_id", .string toolUseId),
      ("content", .string "Tool result unavailable at the compaction boundary."),
      ("is_error", .bool true)]

def isToolResult (block : Json) : Bool := block.getStr "type" == some "tool_result"

def answers (toolUseId : String) (block : Json) : Bool :=
  isToolResult block && block.getStr "tool_use_id" == some toolUseId

variable (blocks : List Json)

def existingResult (toolUseId : String) : Json :=
  (blocks.find? (answers toolUseId)).getD (syntheticToolResult toolUseId)

def nonResults : List Json := blocks.filter fun block => !isToolResult block

def compactionTerminalUserInstruction : Json :=
  textBlock "Proceed with the configured context-management compaction."

/-- The messages up to the last one of the assistant, and those after it. -/
def upToAssistant (messages : List Json) : List Json :=
  messages.rdropWhile fun message => !hasRole "assistant" message

def afterAssistant (messages : List Json) : List Json :=
  messages.rtakeWhile fun message => !hasRole "assistant" message

def ensureCompactionTerminalUserMessage (messages : List Json) : List Json :=
  let required := ((upToAssistant messages).getLast?.map requiredToolResults).getD []
  let trailing := afterAssistant messages
  if trailing.isEmpty = false ∧ trailing.all (hasRole "user") = true then
    if required.isEmpty then messages
    else
      let blocks := trailing.flatMap messageBlocks
      upToAssistant messages ++
        [anthropicMessage "user" (required.map (existingResult blocks) ++ nonResults blocks)]
  else
    messages ++ [anthropicMessage "user"
      (required.map syntheticToolResult ++ [compactionTerminalUserInstruction])]

/-- A message is the user's or the assistant's. -/
def IsTurn (message : Json) : Prop :=
  hasRole "user" message = true ∨ hasRole "assistant" message = true

variable {text : ProviderText} {messages others : List Json} {message : Json}

variable (content : List Json)

theorem isTurn_user : IsTurn (anthropicMessage "user" content) := .inl rfl

theorem isTurn_assistantMessages : ∀ message ∈ assistantMessages content, IsTurn message := by
  intro message sent
  rw [assistantMessages] at sent
  split at sent
  · cases sent
  · cases mem_singleton.mp sent
    exact .inr rfl

variable {rendered : RenderedAnthropicMessages}

theorem isTurn_renderEntry {prompt : PromptSections} {entry : ModelContextEntry}
    (isRendered : renderEntry text prompt entry = .ok rendered) :
    ∀ message ∈ rendered.messages, IsTurn message := by
  have user (content : List Json) : ∀ message ∈ [anthropicMessage "user" content],
      IsTurn message := by
    intro message sent
    cases mem_singleton.mp sent
    exact isTurn_user content
  rw [renderEntry] at isRendered
  split at isRendered
  · cases isRendered
    exact user _
  · obtain ⟨⟨replay, _⟩, -, isRendered⟩ := bind_eq_ok.mp isRendered
    cases isRendered
    exact forall_mem_append.mpr ⟨isTurn_assistantMessages replay, user _⟩
  · obtain ⟨⟨replay, _⟩, -, isRendered⟩ := bind_eq_ok.mp isRendered
    cases isRendered
    exact isTurn_assistantMessages _
  · cases isRendered
    exact user _
  · split at isRendered
    · cases isRendered
      exact user _
    · cases isRendered
  all_goals
    cases isRendered
    simp

theorem isTurn_renderTranscript {prompt : PromptSections} {transcript : List ModelContextEntry}
    (isRendered : renderTranscriptMessages text prompt transcript = .ok rendered) :
    ∀ message ∈ rendered.messages, IsTurn message := by
  induction transcript generalizing rendered with
  | nil =>
    cases isRendered
    simp
  | cons _ _ ih =>
    rw [renderTranscriptMessages] at isRendered
    obtain ⟨_, isOwn, isRendered⟩ := bind_eq_ok.mp isRendered
    obtain ⟨_, isLater, isRendered⟩ := bind_eq_ok.mp isRendered
    cases isRendered
    exact forall_mem_append.mpr ⟨isTurn_renderEntry isOwn, ih isLater⟩

theorem isTurn_without (message : Json) :
    IsTurn (message.without "cache_control") ↔ IsTurn message := by
  rw [IsTurn, IsTurn, hasRole, hasRole, hasRole, hasRole, Json.getStr_without (by decide)]

/-- Markers do not change whose a message is. -/
theorem isTurn_of_uncached
    (same : withoutItems "cache_control" messages = withoutItems "cache_control" others)
    (turns : ∀ message ∈ others, IsTurn message) : ∀ message ∈ messages, IsTurn message := by
  intro message sent
  have marked : message.without "cache_control" ∈ withoutItems "cache_control" messages := by
    rw [Json.withoutItems_eq]
    exact mem_map_of_mem sent
  rw [same, Json.withoutItems_eq] at marked
  obtain ⟨other, isOther, erased⟩ := mem_map.mp marked
  rw [← isTurn_without, ← erased, isTurn_without]
  exact turns other isOther

theorem isTurn_transcriptToMessages {input : AnthropicRequestBodyInput}
    (isRendered : transcriptToMessagesForRequest text input = .ok rendered) :
    ∀ message ∈ rendered.messages, IsTurn message := by
  obtain ⟨_, isPlain, same, -⟩ := transcriptToMessages_uncached isRendered
  refine isTurn_of_uncached same ?_
  obtain ⟨_, isWhole, isPlain⟩ := bind_eq_ok.mp isPlain
  cases isPlain
  have turns := isTurn_renderTranscript isWhole
  simp only [appendDynamicContextMessage]
  split
  · refine forall_mem_append.mpr ⟨turns, ?_⟩
    intro message sent
    cases mem_singleton.mp sent
    exact isTurn_user _
  · exact turns

theorem upToAssistant_append (messages : List Json) :
    upToAssistant messages ++ afterAssistant messages = messages :=
  rdropWhile_append_rtakeWhile

/-- What stands after the last message of the assistant is found after it. -/
theorem split_lastAssistant {before after : List Json} {assistant : Json}
    (speaks : hasRole "assistant" assistant)
    (last : ∀ message ∈ after, hasRole "assistant" message = false) :
    upToAssistant (before ++ assistant :: after) = before ++ [assistant] ∧
      afterAssistant (before ++ assistant :: after) = after := by
  have dropped : ∀ message ∈ after.reverse, (!hasRole "assistant" message) := by
    intro message sent
    rw [last message (mem_reverse.mp sent)]
    rfl
  rw [upToAssistant, afterAssistant, List.rdropWhile, List.rtakeWhile, reverse_append,
    reverse_cons, append_assoc, takeWhile_append_of_pos dropped,
    dropWhile_append_of_pos dropped]
  simp [speaks]

theorem upToAssistant_user :
    upToAssistant (upToAssistant messages ++ [anthropicMessage "user" content]) =
      upToAssistant messages := by
  rw [upToAssistant, rdropWhile_concat_pos _ _ _ rfl]
  exact rdropWhile_idempotent _ _

theorem afterAssistant_user :
    afterAssistant (upToAssistant messages ++ [anthropicMessage "user" content]) =
      [anthropicMessage "user" content] := by
  have none : afterAssistant (upToAssistant messages) = [] :=
    rtakeWhile_eq_nil_iff.mpr fun some => rdropWhile_last_not _ _ some
  rw [afterAssistant, rtakeWhile_concat_pos _ _ _ rfl]
  exact congrArg (· ++ [anthropicMessage "user" content]) none

theorem answers_syntheticToolResult (toolUseId other : String) :
    answers toolUseId (syntheticToolResult other) = (other == toolUseId) := rfl

/-- A result answers one call. -/
theorem answers_unique {block : Json} {toolUseId other : String}
    (one : answers toolUseId block) (two : answers other block) : other = toolUseId := by
  rw [answers, Bool.and_eq_true, beq_iff_eq] at one two
  exact Option.some.inj (two.2.symm.trans one.2)

theorem answers_existingResult (toolUseId : String) :
    answers toolUseId (existingResult blocks toolUseId) := by
  rw [existingResult]
  cases found : blocks.find? (answers toolUseId) with
  | none => simp [answers_syntheticToolResult]
  | some => exact find?_some found

/-- The calls that are to be answered. -/
def required (messages : List Json) : List String :=
  ((upToAssistant messages).getLast?.map requiredToolResults).getD []

theorem required_user :
    required (upToAssistant messages ++ [anthropicMessage "user" content]) = required messages := by
  rw [required, required, upToAssistant_user]

/-- The blocks of the last message: the results in the order of the calls, what else the user had
said, and the instruction where the user had said nothing. -/
def terminalContent (toolUseIds : List String) (trailing : List Json) : List Json :=
  toolUseIds.map (existingResult (trailing.flatMap messageBlocks)) ++
    nonResults (trailing.flatMap messageBlocks) ++
    if trailing.isEmpty then [compactionTerminalUserInstruction] else []

theorem ensureCompactionTerminalUserMessage_eq
    (turns : ∀ message ∈ afterAssistant messages, hasRole "user" message) :
    ensureCompactionTerminalUserMessage messages =
      if (afterAssistant messages).isEmpty = false ∧ (required messages).isEmpty then
        messages
      else
        upToAssistant messages ++
          [anthropicMessage "user" (terminalContent (required messages) (afterAssistant messages))] := by
  rw [ensureCompactionTerminalUserMessage]
  cases isAfter : afterAssistant messages with
  | nil =>
    have whole := upToAssistant_append messages
    rw [isAfter, append_nil] at whole
    rw [whole]
    simp [terminalContent, nonResults, required, whole]
    rfl
  | cons =>
    rw [isAfter] at turns
    simp only [all_eq_true.mpr turns, isEmpty_cons, true_and, if_true]
    cases isRequired : (required messages).isEmpty
    · have asked : (((upToAssistant messages).getLast?.map requiredToolResults).getD []).isEmpty =
          false := isRequired
      simp [asked, terminalContent, required]
    · have asked : (((upToAssistant messages).getLast?.map requiredToolResults).getD []).isEmpty =
          true := isRequired
      simp [asked]

theorem find?_existingResults {blocks others : List Json} {toolUseId : String}
    {toolUseIds : List String} (asked : toolUseId ∈ toolUseIds) :
    (toolUseIds.map (existingResult blocks) ++ others).find? (answers toolUseId) =
      some (existingResult blocks toolUseId) := by
  induction toolUseIds with
  | nil => cases asked
  | cons first _ ih =>
    rw [map_cons, cons_append, find?_cons]
    cases found : answers toolUseId (existingResult blocks first) with
    | true => rw [answers_unique found (answers_existingResult blocks first)]
    | false =>
      refine ih ((mem_cons.mp asked).resolve_left ?_)
      rintro rfl
      rw [answers_existingResult] at found
      cases found

theorem nonResults_existingResults (toolUseIds : List String) :
    nonResults (toolUseIds.map (existingResult blocks)) = [] := by
  rw [nonResults, filter_eq_nil_iff]
  intro block isResult
  obtain ⟨toolUseId, -, rfl⟩ := mem_map.mp isResult
  have answered := answers_existingResult blocks toolUseId
  rw [answers, Bool.and_eq_true] at answered
  rw [answered.1]
  decide

/-- Asked for the same calls again, the message is the one it was. -/
theorem terminalContent_again (toolUseIds : List String) (trailing : List Json) :
    terminalContent toolUseIds [anthropicMessage "user" (terminalContent toolUseIds trailing)] =
      terminalContent toolUseIds trailing := by
  have blocks (content : List Json) :
      [anthropicMessage "user" content].flatMap messageBlocks = content := append_nil _
  rw [terminalContent, blocks]
  have results : toolUseIds.map (existingResult (terminalContent toolUseIds trailing)) =
      toolUseIds.map (existingResult (trailing.flatMap messageBlocks)) := by
    refine map_congr_left fun toolUseId asked => ?_
    rw [existingResult, terminalContent, append_assoc, find?_existingResults asked]
    rfl
  have others : nonResults (terminalContent toolUseIds trailing) =
      nonResults (trailing.flatMap messageBlocks) ++
        if trailing.isEmpty then [compactionTerminalUserInstruction] else [] := by
    rw [terminalContent, append_assoc, nonResults, filter_append, filter_append]
    rw [← nonResults, nonResults_existingResults, nil_append, nonResults, filter_filter]
    split
    · simp
      rfl
    · simp
  rw [results, others, isEmpty_cons]
  rw [terminalContent, append_assoc]
  simp

/-- However a transcript ends, its compaction request ends with one message of the user that
answers the calls still open, and doing so again changes nothing. -/
theorem compaction_ends_legally (text : ProviderText) (input : AnthropicRequestBodyInput)
    (rendered : RenderedAnthropicMessages)
    (isRendered : transcriptToMessagesForRequest text input = .ok rendered) :
    (∃ earlier message,
      ensureCompactionTerminalUserMessage rendered.messages = earlier ++ [message] ∧
        hasRole "user" message = true) ∧
    (∀ before assistant after, rendered.messages = before ++ assistant :: after →
      hasRole "assistant" assistant = true →
      (∀ message ∈ after, hasRole "assistant" message = false) →
      before ++ [assistant] <+: ensureCompactionTerminalUserMessage rendered.messages ∧
      (requiredToolResults assistant ≠ [] →
        ensureCompactionTerminalUserMessage rendered.messages =
          before ++ [assistant, anthropicMessage "user"
            ((requiredToolResults assistant).map (existingResult (after.flatMap messageBlocks)) ++
              nonResults (after.flatMap messageBlocks) ++
              if after.isEmpty then [compactionTerminalUserInstruction] else [])])) ∧
    ensureCompactionTerminalUserMessage (ensureCompactionTerminalUserMessage rendered.messages) =
      ensureCompactionTerminalUserMessage rendered.messages := by
  have turns : ∀ message ∈ afterAssistant rendered.messages, hasRole "user" message := by
    intro message sent
    refine (isTurn_transcriptToMessages isRendered message
      ((rtakeWhile_suffix _ _).subset sent)).resolve_right ?_
    have quiet := mem_rtakeWhile_imp sent
    simpa using quiet
  have isEnded := ensureCompactionTerminalUserMessage_eq turns
  refine ⟨?_, ?_, ?_⟩
  · rw [isEnded]
    split
    · rename_i kept
      have whole := upToAssistant_append rendered.messages
      obtain nil | ⟨earlier, message, isLast⟩ := (afterAssistant rendered.messages).eq_nil_or_concat
      · rw [nil] at kept
        cases kept.1
      · rw [isLast, concat_eq_append] at whole turns
        refine ⟨upToAssistant rendered.messages ++ earlier, message, ?_, turns message (by simp)⟩
        rw [append_assoc, whole]
    · exact ⟨_, _, rfl, rfl⟩
  · intro before assistant after isSplit speaks last
    obtain ⟨upTo, isAfter⟩ := split_lastAssistant speaks last
    rw [← isSplit] at upTo isAfter
    have asked : required rendered.messages = requiredToolResults assistant := by
      rw [required, upTo, getLast?_concat]
      rfl
    rw [isEnded, asked, isAfter, upTo]
    constructor
    · split
      · rw [isSplit]
        exact ⟨after, by simp⟩
      · exact prefix_append _ _
    · intro some
      rw [if_neg fun kept => some (isEmpty_iff.mp kept.2)]
      rw [append_assoc]
      rfl
  · rw [isEnded]
    split
    · rename_i kept
      rw [isEnded, if_pos kept]
    · have user : ∀ message ∈ afterAssistant (upToAssistant rendered.messages ++
          [anthropicMessage "user" (terminalContent (required rendered.messages)
            (afterAssistant rendered.messages))]), hasRole "user" message := by
        rw [afterAssistant_user]
        intro message sent
        cases mem_singleton.mp sent
        rfl
      rw [ensureCompactionTerminalUserMessage_eq user, afterAssistant_user, upToAssistant_user,
        required_user, terminalContent_again]
      split <;> rfl

/-- The user has said something else while a call is open. -/
def openCallInput : AnthropicRequestBodyInput where
  model := "claude"
  prompt := { stablePrefix := none, dynamicContext := none }
  transcript :=
    [{ item := .assistantMessage
        { items := [.toolCall { id := "toolu_1", toolName := "Bash", argsJson := "\x7b\x7d" }] },
       providerReplay := [] },
      { item := .userMessage (.text "stop"), providerReplay := [] }]
  toolProfile := .none
  tools := []
  maxTokens := some 64000
  reasoningEffort := none
  capabilities := ⟨false, false, false, false, false, false, false, false, true⟩
  cacheTranscript := true
  transcriptCachePrefixLen := none

theorem compaction_ends_legally_openCall :
    ∃ rendered,
      transcriptToMessagesForRequest sampleMessageText.toProviderText openCallInput =
        .ok rendered ∧
      ∃ earlier message,
        ensureCompactionTerminalUserMessage rendered.messages = earlier ++ [message] ∧
          hasRole "user" message = true :=
  ⟨_, rfl, (compaction_ends_legally sampleMessageText.toProviderText openCallInput _ rfl).1⟩

end PiRelay.AgentProvider
