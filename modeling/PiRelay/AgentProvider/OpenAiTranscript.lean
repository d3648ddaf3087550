import PiRelay.AgentProvider.OpenAiItems
import PiRelay.AgentSession.ModelContext
import PiRelay.Library.Text

/-! A transcript as the input of an OpenAI request. An assistant message goes out as the
items it was received as, a compacted root as the items it was compacted to. -/
namespace PiRelay.AgentProvider

open AgentVocab Session List
open Library (Json isWhitespace)

/-- What the adapter uses of other code: JSON text, the text of an observation, and the limit
of a tool output. -/
structure ProviderText where
  toText : Json → String
  fromText : String → Option Json
  observationText : DaemonToolObservation → Option String
  limitToolOutput : String → String

structure PromptSections where
  stablePrefix : Option String
  dynamicContext : Option String

def isBlank (text : String) : Bool := text.toList.all isWhitespace

def compactionSummaryText (summary : CompactionSummary) (prompt : PromptSections) : String :=
  let compacted :=
    "The conversation history before this point was compacted into this summary:\n\n"
      ++ summary.summary
  match prompt.stablePrefix with
  | some piPrompt =>
    if isBlank piPrompt then compacted
    else
      "The active PI.md system prompt is included below because it still applies after this "
        ++ "compaction.\n\n" ++ piPrompt ++ "\n\n" ++ compacted
  | none => compacted

def openaiWireToolName (canonicalName : String) : String :=
  match canonicalName with
  | "Edit" => "apply_patch"
  | "WebFetch" => "web_fetch"
  | "WebSearch" => "web_search"
  | other => other

def inputText (text : String) : Json :=
  .object [("type", .string "input_text"), ("text", .string text)]

def messageItem (role : String) (content : List Json) : Json :=
  .object [("type", .string "message"), ("role", .string role), ("content", .array content)]

def responsesUserContent (message : UserMessage) : List Json :=
  message.content.map fun
    | .text text => inputText text
    | .image image =>
      match image.source with
      | .url url => .object [("type", .string "input_image"), ("image_url", .string url)]
      | .base64 data =>
        .object
          [("type", .string "input_image"),
            ("image_url", .string ("data:" ++ image.mimeType ++ ";base64," ++ data))]

def userMessageItem (message : UserMessage) : Json :=
  messageItem "user" (responsesUserContent message)

variable (text : ProviderText)

def responseToolCallItem (call : ToolCall) : Json :=
  if call.toolName = "Edit" then
    let input := ((text.fromText call.argsJson).bind (·.getStr "input")).getD call.argsJson
    .object
      [("type", .string "custom_tool_call"), ("call_id", .string call.id),
        ("name", .string (openaiWireToolName call.toolName)), ("input", .string input)]
  else
    .object
      [("type", .string "function_call"), ("call_id", .string call.id),
        ("name", .string (openaiWireToolName call.toolName)), ("arguments", .string call.argsJson)]

def responseToolResultItem (result : ToolResultMessage) : Json :=
  let itemType :=
    if result.toolName = "Edit" then "custom_tool_call_output" else "function_call_output"
  .object
    [("type", .string itemType), ("call_id", .string result.toolCallId),
      ("output", .string result.output)]

def readReplay : List ProviderReplayItem → ProviderResult (List Json)
  | [] => .ok []
  | record :: rest => do
    let value ← match text.fromText record.rawJson with
      | some value => .ok value
      | none => .error (.json record.rawJson)
    let values ← readReplay rest
    .ok (value :: values)

def providerReplayValuesFor (provider : ProviderKind) (entry : ModelContextEntry) :
    ProviderResult (List Json) :=
  readReplay text (entry.providerReplay.filter (·.provider == provider))

theorem readReplay_written {records : List ProviderReplayItem}
    {values : List Json} (written : records.map (·.rawJson) = values.map text.toText)
    (reads : ∀ value ∈ values, text.fromText (text.toText value) = some value) :
    readReplay text records = .ok values := by
  induction records generalizing values with
  | nil =>
    obtain rfl : values = [] := by simpa using written.symm
    rfl
  | cons _ _ ih =>
    cases values with
    | nil => cases written
    | cons value =>
      obtain ⟨isValue, areOthers⟩ := List.cons.inj written
      have first := reads value (.head _)
      rw [← isValue] at first
      rw [readReplay, first, ih areOthers fun other listed =>
        reads other (mem_cons_of_mem value listed)]
      rfl

theorem providerReplayValuesFor_written {entry : ModelContextEntry}
    {provider : ProviderKind} {items : List Json}
    (written : entry.providerReplay.map (fun record => (record.provider, record.rawJson)) =
      items.map fun item => (provider, text.toText item))
    (reads : ∀ item ∈ items, text.fromText (text.toText item) = some item) :
    providerReplayValuesFor text provider entry = .ok items := by
  have providers : entry.providerReplay.filter (·.provider == provider) = entry.providerReplay := by
    rw [filter_eq_self]
    intro record listed
    have isPair : (record.provider, record.rawJson) ∈
        entry.providerReplay.map fun record => (record.provider, record.rawJson) :=
      mem_map_of_mem listed
    rw [written, mem_map] at isPair
    obtain ⟨_, -, same⟩ := isPair
    have isProvider : provider = record.provider := congrArg Prod.fst same
    rw [isProvider, beq_self_eq_true]
  have raw : entry.providerReplay.map (·.rawJson) = items.map text.toText := by
    have texts := congrArg (List.map Prod.snd) written
    simpa [Function.comp_def] using texts
  rw [providerReplayValuesFor, providers, readReplay_written text raw reads]

def validateReplayItem (item : Json) : ProviderResult Unit := do
  let itemType ← openaiReplayItemType item "persisted OpenAI replay item"
  let _ ← validateOpenaiOrdinaryItemPolicy itemType item
  .ok ()

def openaiReplayItems (entry : ModelContextEntry) (allowUnknownCompactItems : Bool) :
    ProviderResult (List Json) := do
  let replay ← providerReplayValuesFor text .openAi entry
  if allowUnknownCompactItems then .ok ()
  else replay.forM validateReplayItem
  .ok replay

def requireReplayItemType (item : Json) : ProviderResult Unit := do
  let _ ← openaiReplayItemType item "persisted OpenAI compaction replay item"
  .ok ()

def validateOpenaiCompactionReplay (replay : List Json) : ProviderResult Unit := do
  if replay.isEmpty then refuse "refusing missing persisted OpenAI compaction replay" else .ok ()
  replay.forM requireReplayItemType
  let compactionCount := replay.countP isOpenaiCompactionItem
  if compactionCount ≠ 1 then
    refuse ("refusing malformed persisted OpenAI compaction replay: expected exactly one native "
      ++ "compaction item, found " ++ toString compactionCount)
  else .ok ()

variable (prompt : PromptSections)

def assistantItems (message : AssistantMessage) : List Json :=
  let said := String.join (message.items.filterMap fun
    | .text text => some text
    | .toolCall _ => none)
  (if said.isEmpty then []
    else [messageItem "assistant"
      [.object [("type", .string "output_text"), ("text", .string said)]]])
    ++ message.toolCalls.map (responseToolCallItem text)

def entryResponseItems (entry : ModelContextEntry) : ProviderResult (List Json) :=
  match entry.item with
  | .userMessage message => .ok [userMessageItem message]
  | .compactionSummary summary => do
    let replay ← openaiReplayItems text entry true
    if replay.isEmpty then
      -- A compaction of another provider goes on from the text of its summary.
      .ok [messageItem "user" [inputText (compactionSummaryText summary prompt)]]
    else do
      validateOpenaiCompactionReplay replay
      .ok replay
  | .assistantMessage message => do
    let replay ← openaiReplayItems text entry false
    if replay.isEmpty then .ok (assistantItems text message) else .ok replay
  | .toolResult result => .ok [responseToolResultItem result]
  | .daemonToolObservation observation =>
    match text.observationText observation with
    | some observed => .ok [messageItem "user" [inputText observed]]
    | none => .error (.json observation.argsJson)
  | .turnStarted _ | .toolCallStarted _ _ | .turnFinished _ _ => .ok []

def transcriptToResponseItems : List ModelContextEntry → ProviderResult (List Json)
  | [] => .ok []
  | entry :: rest => do
    let items ← entryResponseItems text prompt entry
    let later ← transcriptToResponseItems rest
    .ok (items ++ later)

def canonicalToolCallForProvider (provider : ProviderKind) (call : ToolCall) : ToolCall :=
  { call with toolName := canonicalToolNameForProvider provider call.toolName }

/-- The names of a foreign request are read as the ones they have here. -/
def normalizeTranscriptItemForProvider (entry : ModelContextEntry) : TranscriptItem :=
  let item : TranscriptItem :=
    match entry.item with
    | .toolResult result => .toolResult { result with output := text.limitToolOutput result.output }
    | item => item
  match entry.providerReplay.head?.map (·.provider), item with
  | some provider, .assistantMessage message =>
    .assistantMessage
      { items := message.items.map fun
          | .toolCall call => AssistantItem.toolCall (canonicalToolCallForProvider provider call)
          | .text said => AssistantItem.text said }
  | some provider, .toolCallStarted turnId call =>
    .toolCallStarted turnId (canonicalToolCallForProvider provider call)
  | _, item => item

def providerTranscript (context : ModelContext) : List ModelContextEntry :=
  context.intoEntries.map fun entry =>
    { entry with item := normalizeTranscriptItemForProvider text entry }

end PiRelay.AgentProvider
