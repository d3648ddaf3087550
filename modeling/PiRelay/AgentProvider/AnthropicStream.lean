import Mathlib.Algebra.Ring.Nat
import PiRelay.AgentProvider.ModelResponse

/-! The parser of an Anthropic response stream. Content blocks arrive one after another, each
opened, filled and closed; the stop reason follows the last of them, and the end of the
message follows the stop reason. -/
namespace PiRelay.AgentProvider

open AgentVocab
open Library (Json)

def anthropicBlockType (block : Json) (context : String) : ProviderResult String :=
  openaiReplayItemType block context

def canonicalAnthropicToolName (name : String) : String :=
  canonicalToolNameForProvider .claude name

def rejectOrdinaryAnthropicCompaction : ProviderError :=
  .provider ("Anthropic ordinary response unexpectedly contained inline compaction; "
    ++ "refusing to persist partial or opaque response content")

def validateWebSearchResult (result : Json) : ProviderResult Unit := do
  let resultType ← anthropicBlockType result "Anthropic web search result"
  if resultType ≠ "web_search_result" then
    refuse "Anthropic web_search_tool_result contained unsupported result type"
  else .ok ()

def validateAnthropicHostedToolResult (blockType : String) (content : Json) : ProviderResult Unit :=
  match blockType, content with
  | "web_search_tool_result", .array results => results.forM validateWebSearchResult
  | "web_search_tool_result", .object fields => do
    let resultType ← anthropicBlockType (.object fields) "Anthropic web search result error"
    if resultType ≠ "web_search_tool_result_error" then
      refuse "Anthropic web_search_tool_result contained malformed error"
    else .ok ()
  | "web_fetch_tool_result", .object fields => do
    let resultType ← anthropicBlockType (.object fields) "Anthropic web fetch result"
    if resultType ≠ "web_fetch_result" ∧ resultType ≠ "web_fetch_tool_result_error" then
      refuse "Anthropic web_fetch_tool_result contained malformed error"
    else .ok ()
  | blockType, _ => refuse ("Anthropic " ++ blockType ++ " content had invalid type")

section

variable (block : Json)

def requiredString (blockType field : String) : ProviderResult String :=
  match block.getStr field with
  | some value => .ok value
  | none => refuse ("Anthropic " ++ blockType ++ " content block missing string " ++ field)

def requiredNonemptyString (blockType field : String) : ProviderResult String := do
  let value ← requiredString block blockType field
  if value.isEmpty then
    refuse ("Anthropic " ++ blockType ++ " content block had empty " ++ field)
  else .ok value

def validateTextStart : ProviderResult Unit := do
  let said ← requiredString block "text" "text"
  if !said.isEmpty then refuse "Anthropic streamed text content block had pre-populated text"
  else .ok ()
  match block.get "citations" with
  | none | some .null => .ok ()
  | some (.array citations) =>
    if citations.isEmpty then .ok ()
    else refuse "Anthropic streamed text content block had pre-populated citations"
  | some _ => refuse "Anthropic text content block citations was not an array or null"

def validateThinkingStart : ProviderResult Unit := do
  let thinking ← requiredString block "thinking" "thinking"
  let prePopulated ← if thinking.isEmpty then do
      let signature ← requiredString block "thinking" "signature"
      .ok !signature.isEmpty
    else .ok true
  if prePopulated then
    refuse "Anthropic streamed thinking content block had pre-populated content"
  else .ok ()

def validateToolUseStart (blockType : String) : ProviderResult Unit := do
  let _ ← requiredNonemptyString block blockType "id"
  let _ ← requiredNonemptyString block blockType "name"
  match block.get "input" with
  | some (.object []) => .ok ()
  | some (.object _) =>
    refuse ("Anthropic streamed " ++ blockType ++ " content block had pre-populated input")
  | _ => refuse ("Anthropic " ++ blockType ++ " content block missing input object")

def validateToolResultStart (blockType : String) : ProviderResult Unit := do
  let _ ← requiredNonemptyString block blockType "tool_use_id"
  match block.get "content" with
  | some content => validateAnthropicHostedToolResult blockType content
  | none => refuse ("Anthropic " ++ blockType ++ " content block missing content")

def validateAnthropicStreamContentStart : ProviderResult Unit := do
  let blockType ← anthropicBlockType block "Anthropic content_block_start content_block"
  match blockType with
  | "text" => validateTextStart block
  | "thinking" => validateThinkingStart block
  | "redacted_thinking" =>
    let _ ← requiredNonemptyString block blockType "data"
    .ok ()
  | "tool_use" | "server_tool_use" => validateToolUseStart block blockType
  | "web_search_tool_result" | "web_fetch_tool_result" => validateToolResultStart block blockType
  | _ => refuse ("Anthropic content_block_start had unsupported content block type " ++ blockType)

def normalizeStreamContentStart : Json :=
  match block.getStr "type" with
  | some "tool_use" | some "server_tool_use" => block.set "input" (.string "")
  | some "text" => block.set "text" (.string "")
  | some "thinking" => (block.set "thinking" (.string "")).set "signature" (.string "")
  | _ => block

end

def requiredAnthropicDeltaString (delta : Json) (field : String) : ProviderResult String :=
  match delta.getStr field with
  | some value => .ok value
  | none =>
    refuse ("Anthropic " ++ (delta.getStr "type").getD "content block delta"
      ++ " missing string " ++ field)

def appendRequiredJsonStringField (block : Json) (blockField : String) (delta : Json)
    (deltaField : String) : ProviderResult Json := do
  let value ← requiredAnthropicDeltaString delta deltaField
  match block.getStr blockField with
  | some current => .ok (block.set blockField (.string (current ++ value)))
  | none => .ok (block.set blockField (.string value))

/-- Whether a thinking block has got its signature. -/
def isSigned (block : Json) : Bool := ((block.getStr "signature").bind nonempty).isSome

def applyThinkingDelta (block delta : Json) : ProviderResult Json :=
  if isSigned block then refuse "Anthropic thinking_delta arrived after signature_delta"
  else appendRequiredJsonStringField block "thinking" delta "thinking"

def applySignatureDelta (block delta : Json) : ProviderResult Json := do
  let signature ← requiredAnthropicDeltaString delta "signature"
  if signature.isEmpty then refuse "Anthropic signature_delta contained an empty signature"
  else if isSigned block then
    refuse "Anthropic thinking block received duplicate signature_delta"
  else .ok (block.set "signature" (.string signature))

def applyCitationsDelta (block delta : Json) : ProviderResult Json := do
  let citation ← match delta.get "citation" with
    | some (.object fields) => .ok (Json.object fields)
    | _ => refuse "Anthropic citations_delta missing citation object"
  let _ ← anthropicBlockType citation "Anthropic citations_delta citation"
  match block.get "citations" with
  | some (.array citations) => .ok (block.set "citations" (.array (citations ++ [citation])))
  | some .null | none => .ok (block.set "citations" (.array [citation]))
  | some _ => refuse "Anthropic text content block citations was not an array or null"

def deltaTypes : List String :=
  ["input_json_delta", "text_delta", "thinking_delta", "signature_delta", "citations_delta"]

def applyDelta (block delta : Json) : ProviderResult Json := do
  let blockType ← anthropicBlockType block "Anthropic streamed content block"
  let deltaType ← match (delta.getStr "type").bind nonempty with
    | some deltaType => .ok deltaType
    | none => refuse "Anthropic content_block_delta missing nonempty delta type"
  if deltaType = "input_json_delta" ∧ (blockType = "tool_use" ∨ blockType = "server_tool_use") then
    appendRequiredJsonStringField block "input" delta "partial_json"
  else if deltaType = "text_delta" ∧ blockType = "text" then
    appendRequiredJsonStringField block "text" delta "text"
  else if deltaType = "thinking_delta" ∧ blockType = "thinking" then applyThinkingDelta block delta
  else if deltaType = "signature_delta" ∧ blockType = "thinking" then
    applySignatureDelta block delta
  else if deltaType = "citations_delta" ∧ blockType = "text" then applyCitationsDelta block delta
  else if deltaType ∈ deltaTypes then
    refuse ("Anthropic " ++ deltaType ++ " was invalid for content block type " ++ blockType)
  else refuse ("Anthropic content_block_delta had unsupported delta type " ++ deltaType)

variable (text : StreamText)

def parseStreamedJsonObject (input : String) : ProviderResult Json :=
  if input.isEmpty then .ok (.object [])
  else
    match text.fromText input with
    | none => refuse ("Anthropic streamed tool input was malformed JSON: " ++ text.parseError input)
    | some value =>
      if value.isObject then .ok value
      else refuse "Anthropic streamed tool input was not a JSON object"

section

variable (block : Json)

def parseToolInput : ProviderResult Json :=
  match block.getStr "input" with
  | some input => do
    let value ← parseStreamedJsonObject text input
    .ok (block.set "input" value)
  | none => refuse "Anthropic streamed tool content block input was not a string"

def finalizeToolInput : ProviderResult Json :=
  match block.getStr "type" with
  | some "tool_use" | some "server_tool_use" => parseToolInput text block
  | _ => .ok block

def finalizeStreamContentBlock : ProviderResult Json := do
  let block ← finalizeToolInput text block
  if block.getStr "type" = some "thinking" ∧ !isSigned block then
    refuse "Anthropic thinking content block ended without signature_delta"
  else .ok block

def anthropicProviderReplayDisplay : Option ReplayDisplay := do
  let name := canonicalAnthropicToolName (← block.getStr "name")
  match ← block.getStr "type" with
  | "server_tool_use" => text.toolDisplay name .hostedTool (block.get "input")
  | "tool_use" => text.toolDisplay name .localTool (block.get "input")
  | _ => none

def claudeToolCall : ProviderResult ToolCall := do
  let id ← match block.getStr "id" with
    | some id => .ok id
    | none => refuse "Claude tool_use missing id"
  let name ← match block.getStr "name" with
    | some name => .ok name
    | none => refuse "Claude tool_use missing name"
  let input ← match block.get "input" with
    | some input => .ok input
    | none => refuse "Claude tool_use missing input"
  .ok { id := id, toolName := canonicalAnthropicToolName name, argsJson := text.toText input }

def pushAnthropicContentBlock (items : List AssistantItem)
    (providerReplay : List ProviderReplayItem) :
    ProviderResult (List AssistantItem × List ProviderReplayItem) := do
  let blockType ← anthropicBlockType block "Anthropic response content block"
  let display := anthropicProviderReplayDisplay text block
  let providerReplay := providerReplay ++ [newWithDisplay text .claude block display]
  match blockType with
  | "text" =>
    match block.getStr "text" with
    | some said => .ok (pushTextItem items said, providerReplay)
    | none => .ok (items, providerReplay)
  | "tool_use" =>
    let call ← claudeToolCall text block
    .ok (items ++ [.toolCall call], providerReplay)
  | _ => .ok (items, providerReplay)

end

/-- The sum of two numbers of 64 bits that stays at the largest. -/
def saturatingAdd (first second : Nat) : Nat := min (first + second) (2 ^ 64 - 1)

def tokenCount (usage : Json) (field : String) : Option Nat := (usage.get field).bind Json.asU64

def normalizedInput (input cacheRead cacheCreation : Option Nat) : Option Nat :=
  input.map fun input =>
    saturatingAdd (saturatingAdd input (cacheRead.getD 0)) (cacheCreation.getD 0)

def totalOf (input output : Option Nat) : Option Nat :=
  match input, output with
  | some input, some output => some (saturatingAdd input output)
  | _, _ => none

def anthropicUsage (value : Json) : Option ProviderUsage :=
  let output := tokenCount value "output_tokens"
  let cacheRead := tokenCount value "cache_read_input_tokens"
  let cacheCreation := tokenCount value "cache_creation_input_tokens"
  let input := normalizedInput (tokenCount value "input_tokens") cacheRead cacheCreation
  some
    { inputTokens := input
      outputTokens := output
      totalTokens := totalOf input output
      cacheReadInputTokens := cacheRead
      cacheCreationInputTokens := cacheCreation
      rawProviderUsage := some value }

def tokenFields : List String :=
  ["input_tokens", "output_tokens", "cache_read_input_tokens", "cache_creation_input_tokens"]

def validateTokenCount (usage : Json) (field : String) : ProviderResult Unit :=
  match usage.get field with
  | none => .ok ()
  | some value =>
    if value.asU64.isNone then
      refuse ("Anthropic message_delta usage." ++ field ++ " was not an unsigned integer")
    else .ok ()

def anthropicMessageDeltaUsage (value : Option Json) : ProviderResult (Option ProviderUsage) :=
  match value with
  | none => .ok none
  | some usage => do
    if usage.isObject then .ok () else refuse "Anthropic message_delta usage was not an object"
    tokenFields.forM (validateTokenCount usage)
    if tokenFields.any fun field => (usage.get field).isSome then .ok (anthropicUsage usage)
    else refuse "Anthropic message_delta usage contained no cumulative token counts"

mutual

def mergeJsonValue (current : Json) : Json → Json
  | .object update =>
    match current with
    | .object fields => .object (mergeJsonFields fields update)
    | _ => .object update
  | update => update

def mergeJsonFields (current : List (String × Json)) :
    List (String × Json) → List (String × Json)
  | [] => current
  | (key, update) :: rest =>
    match current.lookup key with
    | some value => mergeJsonFields (Json.setField key (mergeJsonValue value update) current) rest
    | none => mergeJsonFields (current ++ [(key, update)]) rest

end

def mergeJsonObject (current : Option Json) (update : Json) : Json :=
  mergeJsonValue (current.getD (.object [])) update

/-- A zero in a later fragment does not erase a count that was reported before. -/
def keepReported (previous update : Option Json) (raw : Json) (key : String) : Json :=
  match previous.bind (tokenCount · key), update.bind (tokenCount · key) with
  | some reported, some 0 =>
    if reported = 0 then raw else raw.set key (.number (.unsigned reported))
  | _, _ => raw

def mergeAnthropicUsage (current : Option ProviderUsage) (update : ProviderUsage) : ProviderUsage :=
  let current := current.getD {}
  let merged := match update.rawProviderUsage with
    | some usage => some (mergeJsonObject current.rawProviderUsage usage)
    | none => current.rawProviderUsage
  match merged with
  | some (.object fields) =>
    let raw :=
      ["input_tokens", "cache_read_input_tokens", "cache_creation_input_tokens"].foldl
        (keepReported current.rawProviderUsage update.rawProviderUsage) (.object fields)
    let output := tokenCount raw "output_tokens"
    let cacheRead := tokenCount raw "cache_read_input_tokens"
    let cacheCreation := tokenCount raw "cache_creation_input_tokens"
    let input := normalizedInput (tokenCount raw "input_tokens") cacheRead cacheCreation
    { inputTokens := input
      outputTokens := output
      totalTokens := totalOf input output
      cacheReadInputTokens := cacheRead
      cacheCreationInputTokens := cacheCreation
      rawProviderUsage := some raw }
  | raw =>
    { current with
      rawProviderUsage := raw
      totalTokens := totalOf current.inputTokens current.outputTokens }

def optionalString (details : Json) (field : String) : ProviderResult (Option String) :=
  match details.get field with
  | none | some .null => .ok none
  | some (.string value) => .ok (some value)
  | some value =>
    refuse ("Anthropic message_delta stop_details." ++ field ++ " was not a string or null: "
      ++ text.toText value)

def anthropicStopDetails (value : Option Json) : ProviderResult (Option ModelStopDetails) :=
  match value with
  | none | some .null => .ok none
  | some details => do
    if details.isObject then .ok ()
    else refuse "Anthropic message_delta stop_details was not an object or null"
    let category ← optionalString text details "category"
    let explanation ← optionalString text details "explanation"
    .ok (some { category := category, explanation := explanation })

def mergeStopDetail (field : String) (current update : Option String) :
    ProviderResult (Option String) :=
  match current, update with
  | some existing, some update =>
    if existing ≠ update then
      refuse ("Anthropic response stream contained conflicting terminal stop_details." ++ field)
    else .ok (some existing)
  | none, some update => .ok (some update)
  | current, none => .ok current

def mergeAnthropicStopDetails (current : Option ModelStopDetails) (update : ModelStopDetails) :
    ProviderResult ModelStopDetails := do
  let current := current.getD {}
  let category ← mergeStopDetail "category" current.category update.category
  let explanation ← mergeStopDetail "explanation" current.explanation update.explanation
  .ok { category := category, explanation := explanation }

def modelStopReason (stopReason : String) : ProviderResult ModelStopReason :=
  match stopReason with
  | "end_turn" | "stop_sequence" | "tool_use" => .ok .complete
  | "max_tokens" => .ok .maxOutputTokens
  | "refusal" => .ok .refusal
  | "pause_turn" | "model_context_window_exceeded" => .error (.incomplete "incomplete" stopReason)
  | _ => .error (.incomplete "unknown_stop_reason" stopReason)

def stopDetailsWithoutReason {α : Type} : ProviderResult α :=
  refuse "Anthropic message_delta had stop_details without a terminal stop_reason"

def deltaStopReason (delta : Json) (hasDetails hasUsage : Bool) : ProviderResult (Option String) :=
  match delta.get "stop_reason" with
  | none =>
    if hasDetails then stopDetailsWithoutReason
    else if !hasUsage then refuse "Anthropic message_delta had neither stop_reason nor usage"
    else .ok none
  | some .null => if hasDetails then stopDetailsWithoutReason else .ok none
  | some (.string stopReason) =>
    if stopReason.isEmpty then refuse "Anthropic message_delta stop_reason was empty"
    else .ok (some stopReason)
  | some stopReason =>
    refuse ("Anthropic message_delta stop_reason was not a string or null: "
      ++ text.toText stopReason)

structure AnthropicStreamState where
  activeContentBlock : Option (Nat × Json) := none
  nextContentBlockIndex : Nat := 0
  providerReplay : List ProviderReplayItem := []
  items : List AssistantItem := []
  usage : Option ProviderUsage := none
  stopReason : ModelStopReason := .complete
  stopDetails : Option ModelStopDetails := none
  messageStarted : Bool := false
  terminalStopReason : Option String := none
  messageStopped : Bool := false

def holdsCompaction (content : List Json) : Bool :=
  content.any fun block => block.getStr "type" == some "compaction"

def isCompactionEvent (event : Json) : Bool :=
  match event.getStr "type" with
  | some "message_start" =>
    (((event.pointer ["message", "content"]).bind Json.asArray).map holdsCompaction).getD false
  | some "content_block_start" =>
    (event.pointer ["content_block", "type"]).bind Json.asStr == some "compaction"
  | some "content_block_delta" =>
    (event.pointer ["delta", "type"]).bind Json.asStr == some "compaction_delta"
  | some "message_delta" =>
    (event.pointer ["delta", "stop_reason"]).bind Json.asStr == some "compaction"
  | _ => false

def rejectOrdinaryCompactionEvent (event : Json) : ProviderResult Unit :=
  if isCompactionEvent event then .error rejectOrdinaryAnthropicCompaction else .ok ()

def anthropicStreamIndex (event : Json) (eventType : String) : ProviderResult Nat :=
  match (event.get "index").bind Json.asU64 with
  | some index => .ok index
  | none => refuse ("Anthropic " ++ eventType ++ " missing valid representable index")

def eventObject (event : Json) (eventType name : String) : ProviderResult Json :=
  match event.get name with
  | some (.object fields) => .ok (.object fields)
  | _ => refuse ("Anthropic " ++ eventType ++ " missing " ++ name ++ " object")

def anthropicErrorMessage (errorType message : Option String) (event : Json) : String :=
  codedMessage errorType (message.getD (text.toText event))

def anthropicStreamProviderError (errorType : Option String) (message : String) : ProviderError :=
  match errorType with
  | some "rate_limit_error" => .status 429 message
  | some "api_error" => .status 500 message
  | some "overloaded_error" => .status 529 message
  | some _ | none => .provider ("Anthropic error: " ++ message)

/-- The type a replay record has once its text is read back. -/
def rawType (item : ProviderReplayItem) : Option String :=
  (text.fromText item.rawJson).bind (·.getStr "type")

namespace AnthropicStreamState

variable (state : AnthropicStreamState)

def requireContentPhase (eventType : String) : ProviderResult Unit :=
  if !state.messageStarted then
    refuse ("Anthropic " ++ eventType ++ " arrived before message_start")
  else if state.terminalStopReason.isSome then
    refuse ("Anthropic " ++ eventType ++ " arrived after terminal stop_reason")
  else .ok ()

def startContentBlock (index : Nat) (block : Json) : ProviderResult AnthropicStreamState :=
  match state.activeContentBlock with
  | some (activeIndex, _) =>
    refuse ("Anthropic content_block_start for index " ++ toString index
      ++ " arrived before content_block_stop for index " ++ toString activeIndex)
  | none =>
    if index ≠ state.nextContentBlockIndex then
      refuse ("Anthropic content_block_start index was not contiguous: expected "
        ++ toString state.nextContentBlockIndex ++ ", found " ++ toString index)
    else do
      validateAnthropicStreamContentStart block
      .ok { state with activeContentBlock := some (index, normalizeStreamContentStart block) }

def applyContentDelta (index : Nat) (delta : Json) : ProviderResult AnthropicStreamState :=
  match state.activeContentBlock with
  | none =>
    refuse ("Anthropic content_block_delta referenced nonexistent block index " ++ toString index)
  | some (activeIndex, block) =>
    if index ≠ activeIndex then
      refuse ("Anthropic content_block_delta index " ++ toString index
        ++ " did not match active block index " ++ toString activeIndex)
    else do
      let block ← applyDelta block delta
      .ok { state with activeContentBlock := some (activeIndex, block) }

def finishContentBlock (index : Nat) : ProviderResult AnthropicStreamState :=
  match state.activeContentBlock with
  | none =>
    refuse ("Anthropic content_block_stop referenced nonexistent block index " ++ toString index)
  | some (activeIndex, block) =>
    if index ≠ activeIndex then
      refuse ("Anthropic content_block_stop index " ++ toString index
        ++ " did not match active block index " ++ toString activeIndex)
    else do
      let block ← finalizeStreamContentBlock text block
      let (items, providerReplay) ←
        pushAnthropicContentBlock text block state.items state.providerReplay
      .ok
        { state with
          activeContentBlock := none
          items := items
          providerReplay := providerReplay
          nextContentBlockIndex := state.nextContentBlockIndex + 1 }

def messageStart (event : Json) : ProviderResult AnthropicStreamState :=
  if state.messageStarted then
    refuse "Anthropic response stream contained duplicate message_start"
  else
    .ok
      { state with
        messageStarted := true
        usage := ((event.get "message").bind (·.get "usage")).bind anthropicUsage }

def contentBlockStart (event : Json) : ProviderResult AnthropicStreamState := do
  state.requireContentPhase "content_block_start"
  let index ← anthropicStreamIndex event "content_block_start"
  let block ← eventObject event "content_block_start" "content_block"
  state.startContentBlock index block

def contentBlockDelta (event : Json) : ProviderResult AnthropicStreamState := do
  state.requireContentPhase "content_block_delta"
  let index ← anthropicStreamIndex event "content_block_delta"
  let delta ← eventObject event "content_block_delta" "delta"
  state.applyContentDelta index delta

def contentBlockStop (event : Json) : ProviderResult AnthropicStreamState := do
  state.requireContentPhase "content_block_stop"
  let index ← anthropicStreamIndex event "content_block_stop"
  state.finishContentBlock text index

/-- What the end of the message and its stop reason have to find. -/
def requireClosed (eventType : String) : ProviderResult Unit :=
  if !state.messageStarted then
    refuse ("Anthropic " ++ eventType ++ " arrived before message_start")
  else
    match state.activeContentBlock with
    | some (index, _) =>
      refuse ("Anthropic " ++ eventType ++ " arrived before content_block_stop for index "
        ++ toString index)
    | none => .ok ()

def requireSameReason (stopReason : String) : ProviderResult Unit :=
  match state.terminalStopReason with
  | some existing =>
    if existing ≠ stopReason then
      refuse ("Anthropic response stream contained conflicting terminal stop reasons: "
        ++ text.debugText existing ++ " and " ++ text.debugText stopReason)
    else .ok ()
  | none => .ok ()

def mergedStopDetails (stopDetails : Option ModelStopDetails) :
    ProviderResult (Option ModelStopDetails) :=
  match stopDetails with
  | some details => (mergeAnthropicStopDetails state.stopDetails details).map some
  | none => .ok state.stopDetails

/-- The first stop reason stands; a later one has to repeat it. -/
def terminate (stopReason : String)
    (stopDetails : Option ModelStopDetails) : ProviderResult AnthropicStreamState := do
  state.requireSameReason text stopReason
  let details ← state.mergedStopDetails stopDetails
  let reason ← modelStopReason stopReason
  .ok
    { state with
      stopDetails := details
      stopReason := reason
      terminalStopReason := state.terminalStopReason.or (some stopReason) }

def messageDelta (event : Json) : ProviderResult AnthropicStreamState := do
  state.requireClosed "message_delta"
  let delta ← eventObject event "message_delta" "delta"
  let update ← anthropicMessageDeltaUsage (event.get "usage")
  let usage := match update with
    | some update => some (mergeAnthropicUsage state.usage update)
    | none => state.usage
  let stopDetails ← anthropicStopDetails text (delta.get "stop_details")
  let stopReason ← deltaStopReason text delta stopDetails.isSome (event.get "usage").isSome
  match stopReason with
  | some stopReason => terminate text { state with usage := usage } stopReason stopDetails
  | none => .ok { state with usage := usage }

def messageStop : ProviderResult AnthropicStreamState := do
  state.requireClosed "message_stop"
  if state.terminalStopReason.isNone then
    refuse "Anthropic message_stop arrived without a recognized terminal stop_reason"
  else .ok { state with messageStopped := true }

def errorEvent (event : Json) : ProviderError :=
  let errorType := (event.pointer ["error", "type"]).bind Json.asStr
  let message := ((event.pointer ["error", "message"]).or (event.get "message")).bind Json.asStr
  anthropicStreamProviderError errorType (anthropicErrorMessage text errorType message event)

def absorb (event : Json) : ProviderResult AnthropicStreamState :=
  match event.getStr "type" with
  | some "message_start" => state.messageStart event
  | some "content_block_start" => state.contentBlockStart event
  | some "content_block_delta" => state.contentBlockDelta event
  | some "content_block_stop" => state.contentBlockStop text event
  | some "message_delta" => state.messageDelta text event
  | some "error" => .error (errorEvent text event)
  | _ => .ok state

def processEvent (event : Json) : ProviderResult (AnthropicStreamState × SseControl) := do
  rejectOrdinaryCompactionEvent event
  if event.getStr "type" = some "message_stop" then
    (state.messageStop).map fun after => (after, .stop)
  else (state.absorb text event).map fun after => (after, .more)

def processSseEvent : SseEvent → ProviderResult (AnthropicStreamState × SseControl)
  | .json event => state.processEvent text event
  | .malformedJson => refuse "Anthropic response stream contained malformed JSON event data"
  | .done => .ok (state, .more)

/-- A refused message is dropped with everything that was streamed before the refusal. -/
def withoutRefused : AnthropicStreamState :=
  if state.stopReason = .refusal then
    { state with activeContentBlock := none, items := [], providerReplay := [] }
  else state

def finish : ProviderResult ModelResponse :=
  if !state.messageStarted then
    refuse "Anthropic response stream ended without message_start"
  else if !state.messageStopped then
    refuse "Anthropic response stream ended before message_stop"
  else if state.terminalStopReason.isNone then
    refuse "Anthropic response stream ended without a recognized stop_reason"
  else
    let kept := state.withoutRefused
    if kept.stopReason = .compaction ∨
        kept.providerReplay.any (fun item => rawType text item == some "compaction") then
      .error rejectOrdinaryAnthropicCompaction
    else
      .ok
        { assistant := { items := kept.items }
          providerReplay := kept.providerReplay
          usage := kept.usage
          stopReason := kept.stopReason
          stopDetails := kept.stopDetails }

end AnthropicStreamState

def parseAnthropicStream (events : List SseEvent) : ProviderResult ModelResponse := do
  let state ← Library.consume (AnthropicStreamState.processSseEvent text) {} events
  state.finish text

end PiRelay.AgentProvider
