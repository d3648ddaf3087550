import PiRelay.AgentProvider.CacheBreakpoints

/-! The bodies of the requests to Anthropic. The messages request and the request that counts its
tokens are built by the same function, with markers for the cache and without. -/
namespace PiRelay.AgentProvider

open AgentVocab Session List
open Library (Json bind_eq_ok)
open Library.Json (withoutItems)

inductive ReasoningEffort where
  | none | minimal | low | medium | high | xhigh | max

def ReasoningEffort.asStr : ReasoningEffort → String
  | .none => "none"
  | .minimal => "minimal"
  | .low => "low"
  | .medium => "medium"
  | .high => "high"
  | .xhigh => "xhigh"
  | .max => "max"

structure AnthropicModelCapabilities where
  adaptiveThinking : Bool
  adaptiveThinkingDefault : Bool
  effort : Bool
  lowEffort : Bool
  mediumEffort : Bool
  highEffort : Bool
  xhighEffort : Bool
  maxEffort : Bool
  nativeCompaction : Bool

variable (capabilities : AnthropicModelCapabilities)

def AnthropicModelCapabilities.supportsEffort : ReasoningEffort → Bool
  | .low => capabilities.lowEffort
  | .medium => capabilities.mediumEffort
  | .high => capabilities.highEffort
  | .xhigh => capabilities.xhighEffort
  | .max => capabilities.maxEffort
  | .none | .minimal => false

structure AnthropicModelMetadata where
  id : String
  maxInputTokens : Option Nat
  maxTokens : Nat
  capabilities : AnthropicModelCapabilities

inductive ProviderToolProfile where
  | none | customDefinitions | openAiCoding | anthropicCoding

/-- A request for the tokens of a request; a tool stands for its declaration. -/
structure ProviderTokenCountRequest where
  model : String
  prompt : PromptSections
  transcript : List ModelContextEntry
  toolProfile : ProviderToolProfile
  tools : List Json
  reasoningEffort : ReasoningEffort

structure ModelRequest extends ProviderTokenCountRequest where
  maxTokens : Option Nat
  transcriptCachePrefixLen : Option Nat

structure AnthropicRequestBodyInput where
  model : String
  prompt : PromptSections
  transcript : List ModelContextEntry
  toolProfile : ProviderToolProfile
  tools : List Json
  maxTokens : Option Nat
  reasoningEffort : Option ReasoningEffort
  capabilities : AnthropicModelCapabilities
  cacheTranscript : Bool
  transcriptCachePrefixLen : Option Nat

def claudeCodeVersion : String := "2.1.268"

def firstUserText (transcript : List ModelContextEntry) : Option String :=
  transcript.findSome? fun entry =>
    match entry.item with
    | .userMessage { content := [.text said], .. } => some said
    | _ => none

variable (prompt : PromptSections)

def attributionFingerprint (transcript : List ModelContextEntry) : String :=
  let text := ((prompt.stablePrefix <|> firstUserText transcript).getD "").toList
  let chars := [4, 7, 20].map fun index => text[index]?.getD '0'
  let input := "59cf53e54c78" ++ String.ofList chars ++ claudeCodeVersion
  let hash := input.toUTF8.toList.foldl (fun hash byte => (hash * 31 + byte.toNat) % 2 ^ 32) 0
  let digits := Nat.toDigits 16 hash
  String.ofList ((List.replicate (8 - digits.length) '0' ++ digits).take 3)

def attributionHeader (transcript : List ModelContextEntry) : String :=
  "x-anthropic-billing-header: cc_version=" ++ claudeCodeVersion ++ "."
    ++ attributionFingerprint prompt transcript ++ "; cc_entrypoint=cli;"

def cacheControl1h : Json := .object [("type", .string "ephemeral"), ("ttl", .string "1h")]

def anthropicSystemBlocks (transcript : List ModelContextEntry) : Option (List Json) :=
  let blocks := textBlock (attributionHeader prompt transcript) ::
    match prompt.stablePrefix with
    | some stable =>
      [.object [("type", .string "text"), ("text", .string stable),
        ("cache_control", cacheControl1h)]]
    | none => []
  if blocks.isEmpty then none else some blocks

def anthropicReasoningEffort (effort : ReasoningEffort) : ProviderResult String :=
  let effort := match effort with
    | .none | .minimal => .low
    | effort => effort
  if capabilities.supportsEffort effort then .ok effort.asStr
  else
    refuse ("reasoning effort " ++ effort.asStr ++ " is not supported by this Claude model")

def anthropicTools (profile : ProviderToolProfile) (tools : List Json) :
    ProviderResult (List Json) :=
  match profile with
  | .none => .ok []
  | .customDefinitions | .anthropicCoding => .ok tools
  | .openAiCoding => refuse "OpenAI coding tools cannot be sent to Claude"

def appendDynamicContextMessage (messages : List Json) : List Json :=
  match prompt.dynamicContext.filter fun value => !isBlank value with
  | some dynamic => messages ++ [anthropicMessage "user" [textBlock dynamic]]
  | none => messages

variable (text : ProviderText)

def transcriptToMessagesForRequest (input : AnthropicRequestBodyInput) :
    ProviderResult RenderedAnthropicMessages :=
  let withDynamic (messages : List Json) := appendDynamicContextMessage input.prompt messages
  if input.cacheTranscript = false then do
    let rendered ← renderTranscriptMessages text input.prompt input.transcript
    .ok { rendered with messages := withDynamic rendered.messages }
  else
    match input.transcriptCachePrefixLen with
    | none => do
      let rendered ← renderTranscriptMessages text input.prompt input.transcript
      .ok
        { rendered with
          messages := withDynamic (addTranscriptCacheBreakpoints rendered.messages) }
    | some prefixLen => do
      let prefixLen := min prefixLen input.transcript.length
      let rendered ← renderTranscriptMessages text input.prompt (input.transcript.take prefixLen)
      let suffix ← renderTranscriptMessages text input.prompt (input.transcript.drop prefixLen)
      .ok
        { messages := withDynamic
            (addTranscriptCacheBreakpoints rendered.messages ++ suffix.messages)
          replaysCompaction := rendered.replaysCompaction || suffix.replaysCompaction }

def withEffort (effort : Option ReasoningEffort) (body : Json) : ProviderResult Json :=
  match effort.filter fun _ => capabilities.effort with
  | none => .ok body
  | some effort => do
    let effort ← anthropicReasoningEffort capabilities effort
    let body :=
      if capabilities.adaptiveThinking && !capabilities.adaptiveThinkingDefault then
        body.set "thinking" (.object [("type", .string "adaptive")])
      else body
    .ok (body.set "output_config" (.object [("effort", .string effort)]))

def withSystem (blocks : Option (List Json)) (body : Json) : Json :=
  match blocks with
  | some blocks => body.set "system" (.array blocks)
  | none => body

def withTools (profile : ProviderToolProfile) (tools : List Json) (body : Json) :
    ProviderResult Json := do
  let tools ← anthropicTools profile tools
  .ok
    (if tools.isEmpty then body
    else (body.set "tools" (.array tools)).set "tool_choice"
      (.object [("type", .string "auto")]))

structure RenderedAnthropicRequest where
  body : Json
  replaysCompaction : Bool

variable (maxTokens : Option Nat)

variable (body : Json)

def withMaxTokens : Json :=
  match maxTokens with
  | some maxTokens => body.set "max_tokens" (.number (.unsigned maxTokens))
  | none => body

def withStream : Json :=
  if maxTokens.isSome then body.set "stream" (.bool true) else body

def anthropicRequestBody (input : AnthropicRequestBodyInput) :
    ProviderResult RenderedAnthropicRequest := do
  let rendered ← transcriptToMessagesForRequest text input
  let body := Json.object [("model", .string input.model), ("messages", .array rendered.messages)]
  let body ← withEffort input.capabilities input.reasoningEffort
    (withMaxTokens input.maxTokens body)
  let body ← withTools input.toolProfile input.tools
    (withSystem (anthropicSystemBlocks input.prompt input.transcript) body)
  .ok { body := withStream input.maxTokens body, replaysCompaction := rendered.replaysCompaction }

def defaultMaxOutputBudget : Nat := 64000
def compactionTriggerTokens : Nat := 50000
def claudeCodeBeta : String := "claude-code-20250219"

structure PreparedAnthropicRequest where
  body : Json
  betaHeader : String

def RenderedAnthropicRequest.prepare (rendered : RenderedAnthropicRequest) :
    PreparedAnthropicRequest where
  body := rendered.body
  betaHeader :=
    if rendered.replaysCompaction then claudeCodeBeta ++ "," ++ "compact-2026-01-12"
    else claudeCodeBeta

def contextManagement (edit : List (String × Json)) : Json :=
  .object [("edits", .array [.object (("type", .string "compact_20260112") :: edit)])]

def applyMessagesCompactionReplayStrategy (replaysCompaction : Bool)
    (metadata : AnthropicModelMetadata) : ProviderResult Json :=
  if replaysCompaction then
    match metadata.maxInputTokens with
    | none =>
      refuse ("safe Anthropic compaction replay for " ++ metadata.id
        ++ " requires a resolved max_input_tokens ceiling")
    | some trigger =>
      .ok (body.set "context_management" (contextManagement
        [("trigger", .object [("type", .string "input_tokens"),
            ("value", .number (.unsigned (max trigger compactionTriggerTokens)))]),
          ("pause_after_compaction", .bool true)]))
  else .ok body

def applyCountCompactionReplayStrategy (replaysCompaction : Bool) : Json :=
  if replaysCompaction then body.set "context_management" (contextManagement []) else body

variable (builtinTools : ProviderKind → List Json)

def effectiveProviderTools (profile : ProviderToolProfile) (tools : List Json) : List Json :=
  if tools.isEmpty = false then tools
  else
    match profile with
    | .openAiCoding => builtinTools .openAi
    | .anthropicCoding => builtinTools .claude
    | .none | .customDefinitions => []

def countBodyInput (request : ProviderTokenCountRequest) (metadata : AnthropicModelMetadata) :
    AnthropicRequestBodyInput where
  model := request.model
  prompt := request.prompt
  transcript := request.transcript
  toolProfile := request.toolProfile
  tools := effectiveProviderTools builtinTools request.toolProfile request.tools
  maxTokens := none
  reasoningEffort := some request.reasoningEffort
  capabilities := metadata.capabilities
  cacheTranscript := false
  transcriptCachePrefixLen := none

def messagesBodyInput (request : ModelRequest) (metadata : AnthropicModelMetadata) :
    AnthropicRequestBodyInput :=
  { countBodyInput builtinTools request.toProviderTokenCountRequest metadata with
    maxTokens := some (min (request.maxTokens.getD defaultMaxOutputBudget) metadata.maxTokens)
    cacheTranscript := true
    transcriptCachePrefixLen := request.transcriptCachePrefixLen }

def prepareMessagesRequest (request : ModelRequest) (metadata : AnthropicModelMetadata) :
    ProviderResult PreparedAnthropicRequest := do
  let rendered ← anthropicRequestBody text (messagesBodyInput builtinTools request metadata)
  let body ← applyMessagesCompactionReplayStrategy rendered.body rendered.replaysCompaction metadata
  .ok { rendered with body := body : RenderedAnthropicRequest }.prepare

def prepareCountTokensRequest (request : ProviderTokenCountRequest)
    (metadata : AnthropicModelMetadata) : ProviderResult PreparedAnthropicRequest := do
  let rendered ← anthropicRequestBody text (countBodyInput builtinTools request metadata)
  .ok { rendered with
    body := applyCountCompactionReplayStrategy rendered.body rendered.replaysCompaction
      : RenderedAnthropicRequest }.prepare

def stripped : Json :=
  ((body.without "cache_control").dropField "max_tokens").dropField "stream"

/-- What is compared of a body: of its context management only that it is there. -/
def comparable : Json :=
  match (stripped body).get "context_management" with
  | some _ => (stripped body).set "context_management" .null
  | none => stripped body

variable {text builtinTools}
variable {body other done value : Json}

theorem stripped_set {key : String} (kept : key ∉ ["cache_control", "max_tokens", "stream"])
    (body value : Json) :
    stripped (body.set key value) = (stripped body).set key (value.without "cache_control") := by
  simp only [mem_cons, not_mem_nil, or_false, not_or] at kept
  rw [stripped, Json.without_set_of_ne kept.1, Json.dropField_set_of_ne kept.2.1,
    Json.dropField_set_of_ne kept.2.2]
  rfl

theorem stripped_withMaxTokens (body : Json) :
    stripped (withMaxTokens maxTokens body) = stripped body := by
  cases maxTokens with
  | none => rfl
  | some =>
    rw [withMaxTokens, stripped, Json.without_set_of_ne (by decide), Json.dropField_set_self]
    rfl

theorem stripped_withStream (body : Json) :
    stripped (withStream maxTokens body) = stripped body := by
  rw [withStream]
  split
  · rw [stripped, Json.without_set_of_ne (by decide), Json.dropField_set_of_ne (by decide),
      Json.dropField_set_self]
    rfl
  · rfl

section

variable (same : stripped body = stripped other)
include same

theorem stripped_withEffort {capabilities : AnthropicModelCapabilities}
    {effort : Option ReasoningEffort} (sent : withEffort capabilities effort body = .ok done) :
    ∃ counted, withEffort capabilities effort other = .ok counted ∧
      stripped done = stripped counted := by
  rw [withEffort] at sent ⊢
  split at sent
  · cases sent
    exact ⟨other, rfl, same⟩
  · obtain ⟨effort, isEffort, sent⟩ := bind_eq_ok.mp sent
    cases sent
    rw [isEffort]
    refine ⟨_, rfl, ?_⟩
    rw [stripped_set (by decide), stripped_set (by decide)]
    split
    · rw [stripped_set (by decide), stripped_set (by decide), same]
    · rw [same]

theorem stripped_withSystem (blocks : Option (List Json)) :
    stripped (withSystem blocks body) = stripped (withSystem blocks other) := by
  cases blocks with
  | none => exact same
  | some => rw [withSystem, withSystem, stripped_set (by decide), stripped_set (by decide), same]

theorem stripped_withTools {profile : ProviderToolProfile} {tools : List Json}
    (sent : withTools profile tools body = .ok done) :
    ∃ counted, withTools profile tools other = .ok counted ∧ stripped done = stripped counted := by
  rw [withTools] at sent ⊢
  obtain ⟨tools, isTools, sent⟩ := bind_eq_ok.mp sent
  cases sent
  rw [isTools]
  refine ⟨_, rfl, ?_⟩
  split
  · exact same
  · rw [stripped_set (by decide), stripped_set (by decide), stripped_set (by decide),
      stripped_set (by decide), same]

end

/-- A transcript is rendered entry by entry, so it may be split anywhere. -/
theorem renderTranscriptMessages_append {prompt : PromptSections}
    {earlier later : List ModelContextEntry} {first second : RenderedAnthropicMessages}
    (isFirst : renderTranscriptMessages text prompt earlier = .ok first)
    (isSecond : renderTranscriptMessages text prompt later = .ok second) :
    renderTranscriptMessages text prompt (earlier ++ later) =
      .ok
        { messages := first.messages ++ second.messages
          replaysCompaction := first.replaysCompaction || second.replaysCompaction } := by
  induction earlier generalizing first with
  | nil =>
    cases isFirst
    exact isSecond
  | cons _ _ ih =>
    rw [renderTranscriptMessages] at isFirst
    obtain ⟨_, isOwn, isFirst⟩ := bind_eq_ok.mp isFirst
    obtain ⟨_, isBetween, isFirst⟩ := bind_eq_ok.mp isFirst
    cases isFirst
    rw [cons_append, renderTranscriptMessages, isOwn, ih isBetween]
    simp [bind, Except.bind, Bool.or_assoc]

theorem withoutItems_withDynamic {messages others : List Json} {prompt : PromptSections}
    (same : withoutItems "cache_control" messages = withoutItems "cache_control" others) :
    withoutItems "cache_control" (appendDynamicContextMessage prompt messages) =
      withoutItems "cache_control" (appendDynamicContextMessage prompt others) := by
  rw [appendDynamicContextMessage, appendDynamicContextMessage]
  split
  · rw [Json.withoutItems_append, Json.withoutItems_append, same]
  · exact same

/-- Marked or not, split or not, the messages are the same but for their markers. -/
theorem transcriptToMessages_uncached {input : AnthropicRequestBodyInput}
    {rendered : RenderedAnthropicMessages}
    (isRendered : transcriptToMessagesForRequest text input = .ok rendered) :
    ∃ plain, transcriptToMessagesForRequest text { input with
        maxTokens := none, cacheTranscript := false, transcriptCachePrefixLen := none } =
          .ok plain ∧
      withoutItems "cache_control" rendered.messages = withoutItems "cache_control" plain.messages ∧
      rendered.replaysCompaction = plain.replaysCompaction := by
  rw [transcriptToMessagesForRequest] at isRendered ⊢
  simp only [if_true]
  split at isRendered
  · exact ⟨rendered, isRendered, rfl, rfl⟩
  · split at isRendered
    · obtain ⟨plain, isPlain, isRendered⟩ := bind_eq_ok.mp isRendered
      cases isRendered
      rw [isPlain]
      exact ⟨_, rfl, withoutItems_withDynamic (withoutItems_addBreakpoints plain.messages), rfl⟩
    · obtain ⟨_, isFirst, isRendered⟩ := bind_eq_ok.mp isRendered
      obtain ⟨_, isSecond, isRendered⟩ := bind_eq_ok.mp isRendered
      cases isRendered
      have whole := renderTranscriptMessages_append isFirst isSecond
      rw [take_append_drop] at whole
      rw [whole]
      refine ⟨_, rfl, withoutItems_withDynamic ?_, rfl⟩
      rw [Json.withoutItems_append, Json.withoutItems_append, withoutItems_addBreakpoints]

/-- The body that is counted is the body that is sent, but for markers and budgets. -/
theorem anthropicRequestBody_counted {input : AnthropicRequestBodyInput}
    {sent : RenderedAnthropicRequest} (isSent : anthropicRequestBody text input = .ok sent) :
    ∃ counted, anthropicRequestBody text { input with
        maxTokens := none, cacheTranscript := false, transcriptCachePrefixLen := none } =
          .ok counted ∧
      stripped sent.body = stripped counted.body ∧
      sent.replaysCompaction = counted.replaysCompaction := by
  obtain ⟨rendered, isRendered, isSent⟩ := bind_eq_ok.mp isSent
  obtain ⟨_, isShaped, isSent⟩ := bind_eq_ok.mp isSent
  obtain ⟨_, isWhole, isSent⟩ := bind_eq_ok.mp isSent
  cases isSent
  obtain ⟨plain, isPlain, messages, replays⟩ := transcriptToMessages_uncached isRendered
  have start : stripped (withMaxTokens input.maxTokens
      (.object [("model", .string input.model), ("messages", .array rendered.messages)])) =
      stripped (.object [("model", .string input.model), ("messages", .array plain.messages)]) := by
    rw [stripped_withMaxTokens]
    simp [stripped, Json.without, Json.withoutFields, messages]
  obtain ⟨_, isEffort, sameEffort⟩ := stripped_withEffort start isShaped
  obtain ⟨tools, isTools, sameTools⟩ := stripped_withTools
    (stripped_withSystem sameEffort (anthropicSystemBlocks input.prompt input.transcript)) isWhole
  refine ⟨{ body := tools, replaysCompaction := plain.replaysCompaction }, ?_, ?_, replays⟩
  · rw [anthropicRequestBody, isPlain]
    simp only [bind, Except.bind, withMaxTokens, isEffort, isTools, withStream]
    rfl
  · rw [stripped_withStream, sameTools]

theorem comparable_contextManagement (same : stripped body = stripped other) (edit bare : Json) :
    comparable (body.set "context_management" edit) =
      comparable (other.set "context_management" bare) := by
  rw [comparable, comparable, stripped_set (by decide), stripped_set (by decide), same]
  cases isObject : (stripped other).isObject with
  | true =>
    rw [Json.get_set_self isObject, Json.get_set_self isObject]
    simp only [Json.set_set]
  | false =>
    cases shape : stripped other with
    | object =>
      rw [shape] at isObject
      cases isObject
    | _ => rfl

/-- Whenever a messages request is prepared its count is, with a comparable body and the same beta
header. -/
theorem prepareMessagesRequest_counted (request : ModelRequest) (metadata : AnthropicModelMetadata)
    {sent : PreparedAnthropicRequest}
    (isSent : prepareMessagesRequest text builtinTools request metadata = .ok sent) :
    ∃ counted, prepareCountTokensRequest text builtinTools request.toProviderTokenCountRequest
        metadata = .ok counted ∧
      comparable sent.body = comparable counted.body ∧ sent.betaHeader = counted.betaHeader := by
  rw [prepareMessagesRequest] at isSent
  obtain ⟨_, isRendered, isSent⟩ := bind_eq_ok.mp isSent
  obtain ⟨_, isBody, isSent⟩ := bind_eq_ok.mp isSent
  cases isSent
  obtain ⟨counted, isCounted, same, replays⟩ := anthropicRequestBody_counted isRendered
  have isCounted' : anthropicRequestBody text (countBodyInput builtinTools
      request.toProviderTokenCountRequest metadata) = .ok counted := isCounted
  rw [prepareCountTokensRequest, isCounted']
  refine ⟨_, rfl, ?_, ?_⟩
  · simp only [RenderedAnthropicRequest.prepare]
    rw [applyMessagesCompactionReplayStrategy, replays] at isBody
    rw [applyCountCompactionReplayStrategy]
    split at isBody
    · rename_i replaying
      rw [if_pos replaying]
      split at isBody
      · cases isBody
      · cases isBody
        exact comparable_contextManagement same _ _
    · rename_i plain
      cases isBody
      rw [if_neg plain, comparable, comparable, same]
  · simp only [RenderedAnthropicRequest.prepare, replays]

/-- The counted request is the request that is sent. -/
theorem prepareCountTokensRequest_agrees (text : ProviderText)
    (builtinTools : ProviderKind → List Json) (request : ModelRequest)
    (metadata : AnthropicModelMetadata) :
    (∀ sent counted, prepareMessagesRequest text builtinTools request metadata = .ok sent →
      prepareCountTokensRequest text builtinTools request.toProviderTokenCountRequest metadata =
        .ok counted →
      comparable sent.body = comparable counted.body ∧ sent.betaHeader = counted.betaHeader) ∧
    ∀ sent, prepareMessagesRequest text builtinTools request metadata = .ok sent →
      ∃ counted, prepareCountTokensRequest text builtinTools request.toProviderTokenCountRequest
        metadata = .ok counted := by
  constructor
  · intro sent counted isSent isCounted
    obtain ⟨found, isFound, bodies, headers⟩ :=
      prepareMessagesRequest_counted request metadata isSent
    rw [isCounted] at isFound
    cases isFound
    exact ⟨bodies, headers⟩
  · intro sent isSent
    obtain ⟨counted, isCounted, -⟩ := prepareMessagesRequest_counted request metadata isSent
    exact ⟨counted, isCounted⟩

end PiRelay.AgentProvider
