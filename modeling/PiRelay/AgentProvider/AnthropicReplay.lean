import PiRelay.AgentProvider.MessageGrammar
import PiRelay.AgentProvider.ReplayRoundTrip
import PiRelay.AgentProvider.SplitDeltas

/-! The messages that a transcript is rendered to for Anthropic. An assistant message goes out
as the blocks of its replay, which are those that its stream closed. -/
namespace PiRelay.AgentProvider

open AgentVocab Session List
open Library (Json)

inductive AnthropicCompactionBlockError where
  | wrongType
  | missingContent
  | nullContent
  | emptyContent
  | nonStringContent
  | invalidEncryptedContent

def AnthropicCompactionBlockError.message : AnthropicCompactionBlockError → String
  | .wrongType => "type was not compaction"
  | .missingContent => "content was missing"
  | .nullContent => "content was null"
  | .emptyContent => "content was empty"
  | .nonStringContent => "content was not a string"
  | .invalidEncryptedContent => "encrypted_content was not string or null"

def validateAnthropicCompactionBlock (block : Json) : Except AnthropicCompactionBlockError Unit :=
  if block.getStr "type" ≠ some "compaction" then .error .wrongType
  else
    match block.get "content" with
    | none => .error .missingContent
    | some .null => .error .nullContent
    | some (.string content) =>
      if content.isEmpty then .error .emptyContent
      else
        match block.get "encrypted_content" with
        | none | some .null | some (.string _) => .ok ()
        | some _ => .error .invalidEncryptedContent
    | some _ => .error .nonStringContent

def validateCompactionReplay (block : Json) : ProviderResult Unit :=
  match validateAnthropicCompactionBlock block with
  | .ok () => .ok ()
  | .error error =>
    refuse ("refusing malformed persisted Anthropic compaction replay: " ++ error.message)

/-- Whether one of the blocks is a compaction; each of them has to be well formed. -/
def replaysCompaction : List Json → ProviderResult Bool
  | [] => .ok false
  | block :: rest => do
    let blockType ← anthropicBlockType block "persisted Anthropic replay block"
    if blockType = "compaction" then validateCompactionReplay block else .ok ()
    let later ← replaysCompaction rest
    .ok (blockType == "compaction" || later)

section

variable (text : ProviderText)

def emittedAnthropicReplay (entry : ModelContextEntry) (compactionSummary : Bool) :
    ProviderResult (List Json × Bool) := do
  let blocks ← providerReplayValuesFor text .claude entry
  if compactionSummary then
    -- A compaction of another provider goes on from the text of its summary.
    match blocks with
    | [] => .ok ([], false)
    | [block] => do
      validateCompactionReplay block
      .ok ([block], true)
    | _ =>
      refuse ("refusing malformed persisted Anthropic compaction replay: expected exactly one "
        ++ "Claude block")
  else do
    let hasCompaction ← replaysCompaction blocks
    .ok (blocks, hasCompaction)

def anthropicWireToolName (canonicalName : String) : String :=
  match canonicalName with
  | "Edit" => "str_replace_based_edit_tool"
  | "WebFetch" => "web_fetch"
  | "WebSearch" => "web_search"
  | other => other

def textBlock (said : String) : Json := .object [("type", .string "text"), ("text", .string said)]

def anthropicUserContent (message : UserMessage) : List Json :=
  message.content.map fun
    | .text said => textBlock said
    | .image image =>
      match image.source with
      | .base64 data =>
        .object
          [("type", .string "image"),
            ("source", .object
              [("type", .string "base64"), ("media_type", .string image.mimeType),
                ("data", .string data)])]
      | .url url => textBlock ("[image url: " ++ url ++ "]")

def anthropicMessage (role : String) (content : List Json) : Json :=
  .object [("role", .string role), ("content", .array content)]

def assistantContent (message : AssistantMessage) : List Json :=
  message.items.map fun
    | .text said => textBlock said
    | .toolCall call =>
      .object
        [("type", .string "tool_use"), ("id", .string call.id),
          ("name", .string (anthropicWireToolName call.toolName)),
          ("input", (text.fromText call.argsJson).getD (.object []))]

def isErrorStatus : ToolResultStatus → Bool
  | .error | .interrupted | .crashed => true
  | .success => false

def toolResultBlock (result : ToolResultMessage) : Json :=
  .object
    [("type", .string "tool_result"), ("tool_use_id", .string result.toolCallId),
      ("content", .string result.output), ("is_error", .bool (isErrorStatus result.status))]

structure RenderedAnthropicMessages where
  messages : List Json
  replaysCompaction : Bool

/-- A message of the assistant, unless it has nothing to say. -/
def assistantMessages (content : List Json) : List Json :=
  if content.isEmpty then [] else [anthropicMessage "assistant" content]

variable (prompt : PromptSections)

def renderEntry (entry : ModelContextEntry) : ProviderResult RenderedAnthropicMessages :=
  match entry.item with
  | .userMessage message =>
    .ok
      { messages := [anthropicMessage "user" (anthropicUserContent message)]
        replaysCompaction := false }
  | .compactionSummary summary => do
    let (replay, hasCompaction) ← emittedAnthropicReplay text entry true
    .ok
      { messages := assistantMessages replay
          ++ [anthropicMessage "user" [textBlock (compactionSummaryText summary prompt)]]
        replaysCompaction := !replay.isEmpty && hasCompaction }
  | .assistantMessage message => do
    let (replay, hasCompaction) ← emittedAnthropicReplay text entry false
    let content := if replay.isEmpty then assistantContent text message else replay
    .ok { messages := assistantMessages content, replaysCompaction := hasCompaction }
  | .toolResult result =>
    .ok
      { messages := [anthropicMessage "user" [toolResultBlock result]]
        replaysCompaction := false }
  | .daemonToolObservation observation =>
    match text.observationText observation with
    | some observed =>
      .ok
        { messages := [anthropicMessage "user" [textBlock observed]]
          replaysCompaction := false }
    | none => .error (.json observation.argsJson)
  | .turnStarted _ | .toolCallStarted _ _ | .turnFinished _ _ =>
    .ok { messages := [], replaysCompaction := false }

def renderTranscriptMessages : List ModelContextEntry → ProviderResult RenderedAnthropicMessages
  | [] => .ok { messages := [], replaysCompaction := false }
  | entry :: rest => do
    let own ← renderEntry text prompt entry
    let later ← renderTranscriptMessages rest
    .ok
      { messages := own.messages ++ later.messages
        replaysCompaction := own.replaysCompaction || later.replaysCompaction }

end

variable {text : StreamText} {blocks : List Json} {response : ModelResponse}

theorem replaysCompaction_closed (closed : ∀ block ∈ blocks, ClosedBlock text block) :
    replaysCompaction blocks = .ok false := by
  induction blocks with
  | nil => rfl
  | cons _ _ ih =>
    obtain ⟨isClosed, others⟩ := forall_mem_cons.mp closed
    obtain ⟨_, isType, named, notCompaction⟩ := isClosed.started.typed
    rw [replaysCompaction, anthropicBlockType_eq_ok_iff.mpr (typed_of_getStr isType named),
      ih others]
    simp [bind, Except.bind, notCompaction]

theorem KeepsBlocks.emitted (keeps : KeepsBlocks text blocks response)
    (reads : ∀ block ∈ blocks, text.fromText (text.toText block) = some block)
    (item : TranscriptItem) :
    emittedAnthropicReplay text.toProviderText
      { item := item, providerReplay := response.providerReplay } false = .ok (blocks, false) := by
  have written : response.providerReplay.map (fun record => (record.provider, record.rawJson)) =
      blocks.map fun block => (ProviderKind.claude, text.toText block) := by
    rw [keeps.replay, map_map]
    rfl
  rw [emittedAnthropicReplay, providerReplayValuesFor_written _ written reads]
  show (replaysCompaction blocks >>= fun hasCompaction => Except.ok (blocks, hasCompaction)) = _
  rw [replaysCompaction_closed keeps.closed]
  rfl

theorem KeepsBlocks.rendered (prompt : PromptSections) (keeps : KeepsBlocks text blocks response)
    (reads : ∀ block ∈ blocks, text.fromText (text.toText block) = some block) :
    renderTranscriptMessages text.toProviderText prompt
        [{ item := .assistantMessage response.assistant,
           providerReplay := response.providerReplay }] =
      .ok { messages := assistantMessages blocks, replaysCompaction := false } := by
  have content : (if blocks.isEmpty then assistantContent text.toProviderText response.assistant
      else blocks) = blocks := by
    split
    · rename_i noBlocks
      have empty : blocks = [] := by simpa using noBlocks
      rw [assistantContent, keeps.items empty, empty]
      rfl
    · rfl
  have entry : renderEntry text.toProviderText prompt
      { item := .assistantMessage response.assistant,
        providerReplay := response.providerReplay } =
      .ok { messages := assistantMessages blocks, replaysCompaction := false } := by
    rw [renderEntry]
    rw [keeps.emitted reads]
    show Except.ok _ = _
    rw [content]
  rw [renderTranscriptMessages, entry]
  show Except.ok _ = _
  rw [append_nil]
  rfl

theorem KeepsBlocks.toolUses (keeps : KeepsBlocks text blocks response) :
    (blocks.filter isToolUse).map (blockToolCall text) = response.assistant.toolCalls.map some := by
  rw [keeps.calls]
  have closed := keeps.closed
  clear keeps
  induction blocks with
  | nil => rfl
  | cons block _ ih =>
    obtain ⟨isClosed, others⟩ := forall_mem_cons.mp closed
    cases isUse : isToolUse block with
    | false =>
      have noCall : blockToolCall text block = none := by simp [blockToolCall, isUse]
      simp [isUse, noCall, ih others]
    | true =>
      obtain ⟨call, isCall⟩ := isClosed.call isUse
      have called : blockToolCall text block = some call := by
        simp [blockToolCall, isUse, isCall, Except.toOption]
      simp [isUse, called, ih others]

/-- A stream is accepted exactly when what it has besides pings and unknown events is a
message. How a text, a thinking or an input is cut into deltas does not change the outcome. A
message that was not refused is rendered as the blocks it closed, in their order, and its calls
stand for its uses of tools, one for one. -/
theorem message_stream_replays (text : StreamText) (prompt : PromptSections) (events : List Json)
    (reads : ∀ block ∈ streamedBlocks text (events.map .json),
      text.fromText (text.toText block) = some block) :
    ((∃ response, parseAnthropicStream text (events.map .json) = .ok response) ↔
      MessageEvents text (events.filter isStreamEvent)) ∧
    (∀ before event after parts kind index pieces, events = before ++ event :: after →
      Splits event parts kind index pieces →
      parseAnthropicStream text ((before ++ (parts ++ after)).map .json) =
        parseAnthropicStream text (events.map .json)) ∧
    ∀ response, parseAnthropicStream text (events.map .json) = .ok response →
      response.stopReason ≠ .refusal →
      emittedAnthropicReplay text.toProviderText
          { item := .assistantMessage response.assistant,
            providerReplay := response.providerReplay } false =
        .ok (streamedBlocks text (events.map .json), false) ∧
      renderTranscriptMessages text.toProviderText prompt
          [{ item := .assistantMessage response.assistant,
             providerReplay := response.providerReplay }] =
        .ok
          { messages := assistantMessages (streamedBlocks text (events.map .json))
            replaysCompaction := false } ∧
      ((streamedBlocks text (events.map .json)).filter isToolUse).map (blockToolCall text) =
        response.assistant.toolCalls.map some := by
  refine ⟨parseAnthropicStream_ok_iff_message reads, ?_, ?_⟩
  · rintro before event after parts kind index pieces rfl splits
    rw [map_append, map_append, map_append, map_cons]
    exact (parseAnthropicStream_split splits (before.map .json) (after.map .json)).symm
  · intro response accepted kept
    have keeps := parseAnthropicStream_keeps accepted kept
    exact ⟨keeps.emitted reads _, keeps.rendered prompt reads, keeps.toolUses⟩

def sampleJson (type : String) (fields : List (String × Json)) : Json :=
  .object (("type", .string type) :: fields)

def sampleBlock (index : Nat) (block : Json) (deltas : List Json) : List Json :=
  sampleJson "content_block_start" (sampleIndexed index "content_block" block)
    :: (deltas.map fun delta => sampleJson "content_block_delta" (sampleIndexed index "delta" delta))
    ++ [sampleJson "content_block_stop" (sampleIndexed index "content_block" .null)]

def sampleStopReason (reason : String) : Json :=
  sampleJson "message_delta" [("delta", .object [("stop_reason", .string reason)])]

def sampleThinking (thinking signature : String) : Json :=
  sampleJson "thinking" [("thinking", .string thinking), ("signature", .string signature)]

/-- A thought in two deltas and its signature, a use of a tool, and a ping between them. -/
def sampleMessage : List Json :=
  sampleJson "message_start" []
    :: sampleBlock 0 (sampleThinking "" "")
      [sampleJson "thinking_delta" [("thinking", .string "so ")],
        sampleJson "thinking_delta" [("thinking", .string "be it")],
        sampleJson "signature_delta" [("signature", .string "signed")]]
    ++ sampleJson "ping" []
    :: sampleBlock 1 (sampleToolUse "toolu_1")
      [sampleJson "input_json_delta" [("partial_json", .string "\x7b")],
        sampleJson "input_json_delta" [("partial_json", .string "\x7d")]]
    ++ [sampleStopReason "tool_use", sampleJson "message_stop" []]

def sampleMessageBlocks : List Json := [sampleThinking "so be it" "signed", sampleToolUse "toolu_1"]

def sampleMessageText : StreamText := sampleTextOf (.object [] :: sampleMessageBlocks)

theorem sampleMessage_reads :
    ∀ block ∈ streamedBlocks sampleMessageText (sampleMessage.map .json),
      sampleMessageText.fromText (sampleMessageText.toText block) = some block := by
  have closed : streamedBlocks sampleMessageText (sampleMessage.map .json) =
      sampleMessageBlocks := by rfl
  rw [closed]
  intro block listed
  simp only [sampleMessageBlocks, mem_cons, not_mem_nil, or_false] at listed
  obtain rfl | rfl := listed <;> rfl

theorem message_stream_replays_sample :
    MessageEvents sampleMessageText (sampleMessage.filter isStreamEvent) ∧
      ∃ response,
        parseAnthropicStream sampleMessageText (sampleMessage.map .json) = .ok response ∧
        renderTranscriptMessages sampleMessageText.toProviderText
            { stablePrefix := none, dynamicContext := none }
            [{ item := .assistantMessage response.assistant,
               providerReplay := response.providerReplay }] =
          .ok
            { messages := [anthropicMessage "assistant" sampleMessageBlocks]
              replaysCompaction := false } := by
  obtain ⟨accepts, -, replays⟩ :=
    message_stream_replays sampleMessageText { stablePrefix := none, dynamicContext := none }
      sampleMessage sampleMessage_reads
  constructor
  · exact accepts.mp ⟨_, rfl⟩
  · refine ⟨_, rfl, ?_⟩
    exact (replays _ rfl (by decide)).2.1

/-- A message whose first delta gives neither a stop reason nor usage. -/
def sampleIdleMessage : List Json :=
  [sampleJson "message_start" [], sampleJson "message_delta" [("delta", .object [])],
    sampleStopReason "end_turn", sampleJson "message_stop" []]

def sampleTrailingEvent : List Json :=
  [sampleJson "message_start" [], sampleStopReason "end_turn", sampleJson "message_stop" [],
    sampleJson "message_start" []]

/-- The order of the events does not decide alone: a delta of the message has to say something,
and nothing is read after the end. -/
theorem message_shape_sample :
    (sampleIdleMessage.map (·.getStr "type") =
        [some "message_start", some "message_delta", some "message_delta", some "message_stop"] ∧
      sampleIdleMessage.filterMap eventStopReason = ["end_turn"] ∧
      parseAnthropicStream sampleMessageText (sampleIdleMessage.map .json) =
        refuse "Anthropic message_delta had neither stop_reason nor usage") ∧
    (sampleTrailingEvent.map (·.getStr "type") =
        [some "message_start", some "message_delta", some "message_stop", some "message_start"] ∧
      ∃ response,
        parseAnthropicStream sampleMessageText (sampleTrailingEvent.map .json) = .ok response) := by
  refine ⟨⟨rfl, ?_, rfl⟩, rfl, _, rfl⟩
  decide +kernel

end PiRelay.AgentProvider
