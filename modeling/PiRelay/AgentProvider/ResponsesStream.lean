import Std.Data.TreeMap.Lemmas
import PiRelay.AgentProvider.ModelResponse

/-! The parser of an OpenAI response stream. Items arrive under their output index, first as
added and then as done; the completed response may list them once more. Nothing is parsed
before the response is complete. -/
namespace PiRelay.AgentProvider

open AgentVocab
open Library (Json)

abbrev OutputItems := Std.TreeMap Nat Json

structure ResponsesMaterializedOutput where
  items : List AssistantItem
  providerReplay : List ProviderReplayItem
  stopReason : ModelStopReason
  stopDetails : Option ModelStopDetails

structure ResponsesStreamState where
  provider : ProviderKind
  addedItems : OutputItems := ∅
  outputItems : OutputItems := ∅
  usage : Option ProviderUsage := none
  materialized : Option ResponsesMaterializedOutput := none
  completed : Bool := false

def stableFields : List String := ["id", "call_id"]

def reconcileField (index : Nat) (earlierLabel laterLabel : String) (earlier later : Json)
    (field : String) : ProviderResult Unit :=
  match (earlier.getStr field).bind nonempty with
  | none => .ok ()
  | some earlierId =>
    if later.getStr field = some earlierId then .ok ()
    else
      refuse ("OpenAI output item " ++ field ++ " changed at output_index " ++ toString index
        ++ " between " ++ earlierLabel ++ " and " ++ laterLabel)

def reconcileOpenaiItemIdentity (index : Nat) (earlierLabel : String) (earlier : Json)
    (laterLabel : String) (later : Json) : ProviderResult Unit := do
  let earlierType ← openaiReplayItemType earlier ("OpenAI " ++ earlierLabel ++ " output item")
  let laterType ← openaiReplayItemType later ("OpenAI " ++ laterLabel ++ " output item")
  if laterType ≠ earlierType then
    refuse ("OpenAI output item type changed at output_index " ++ toString index ++ ": "
      ++ earlierLabel ++ " " ++ earlierType ++ ", " ++ laterLabel ++ " " ++ laterType)
  else .ok ()
  stableFields.forM (reconcileField index earlierLabel laterLabel earlier later)

def reconcileOpenaiAddedItem (index : Nat) (added done : Json) : ProviderResult Unit :=
  reconcileOpenaiItemIdentity index "added" added "done" done

def openaiUsage (value : Json) : Option ProviderUsage :=
  some
    { inputTokens := (value.get "input_tokens").bind Json.asU64
      outputTokens := (value.get "output_tokens").bind Json.asU64
      totalTokens := (value.get "total_tokens").bind Json.asU64
      cacheReadInputTokens :=
        (value.pointer ["input_tokens_details", "cached_tokens"]).bind Json.asU64
      cacheCreationInputTokens := none }

def openaiErrorMessage (text : StreamText) (code message : Option String) (event : Json) : String :=
  codedMessage code (message.getD (text.toText event))

def openaiProviderErrorFromCode (code : Option String) (message : String) : ProviderError :=
  match code with
  | some "rate_limit_exceeded" => .status 429 message
  | some "internal_error" | some "server_error" => .status 500 message
  | some "overloaded_error" | some "server_is_overloaded" | some "slow_down" => .status 529 message
  | some "context_length_exceeded" | some "cyber_policy" | some "insufficient_quota"
  | some "invalid_prompt" | some "usage_not_included" => .provider message
  | some _ | none => .transient message

def openaiProviderReplayDisplay (text : StreamText) (item : Json) : Option ReplayDisplay := do
  match ← item.getStr "type" with
  | "web_search_call" =>
    let action ← item.get "action"
    match ← action.getStr "type" with
    | "search" => text.toolDisplay "WebSearch" .hostedTool (some action)
    | "open_page" => text.toolDisplay "OpenPage" .hostedTool (some action)
    | _ => none
  | "function_call" =>
    let name ← item.getStr "name"
    let arguments ← (item.getStr "arguments").bind text.fromText
    text.toolDisplay (canonicalToolNameForProvider .openAi name) .localTool (some arguments)
  | "custom_tool_call" =>
    let name ← item.getStr "name"
    text.toolDisplay (canonicalToolNameForProvider .openAi name) .localTool none
  | _ => none

/-- The lists a parsed item is added to. -/
structure OutputLanes where
  items : List AssistantItem := []
  providerReplay : List ProviderReplayItem := []

/-- A field the policy has already required. -/
def validatedString (item : Json) (field : String) : String := (item.getStr field).getD ""

/-- One part of a message: its text goes to the items, a refusal replaces the one before. -/
def parseMessagePart (parsed : List AssistantItem × Option String) (part : Json) :
    List AssistantItem × Option String :=
  match part.getStr "type" with
  | some "output_text" => (pushTextItem parsed.1 (validatedString part "text"), parsed.2)
  | some "refusal" => (parsed.1, some (validatedString part "refusal"))
  | _ => parsed

def agentMessageText (content : List Json) : String :=
  "\n".intercalate (content.map fun part => validatedString part "text")

def parseAgentMessage (items : List AssistantItem) (item : Json) : List AssistantItem :=
  let content := (item.getArray "content").getD []
  if content.all fun part => part.getStr "type" == some "input_text" then
    let said := agentMessageText content
    if isBlank said then items else pushTextItem items said
  else items

/-- The call that a wire item with its arguments stands for. -/
def parsedToolCall (provider : ProviderKind) (item : Json) (argsJson : String) : ToolCall where
  id := validatedString item "call_id"
  toolName := canonicalToolNameForProvider provider (validatedString item "name")
  argsJson := argsJson

variable (text : StreamText)

def parseResponseOutputItem (provider : ProviderKind) (lanes : OutputLanes) (item : Json) :
    ProviderResult (OutputLanes × Option String) := do
  let itemType ← openaiReplayItemType item "OpenAI output item"
  let itemClass ← validateOpenaiOrdinaryItemPolicy itemType item
  let display := openaiProviderReplayDisplay text item
  let replay := lanes.providerReplay ++ [newWithDisplay text provider item display]
  match itemClass with
  | .message =>
    let (items, refusal) :=
      ((item.getArray "content").getD []).foldl parseMessagePart (lanes.items, none)
    .ok ({ items := items, providerReplay := replay }, refusal)
  | .functionCall =>
    let call := parsedToolCall provider item (validatedString item "arguments")
    .ok ({ items := lanes.items ++ [.toolCall call], providerReplay := replay }, none)
  | .customToolCall =>
    let input := Json.object [("input", .string (validatedString item "input"))]
    let call := parsedToolCall provider item (text.toText input)
    .ok ({ items := lanes.items ++ [.toolCall call], providerReplay := replay }, none)
  | .agentMessage =>
    .ok ({ items := parseAgentMessage lanes.items item, providerReplay := replay }, none)
  | .hostedOrPassive | .clientExecuted =>
    .ok ({ items := lanes.items, providerReplay := replay }, none)

def validateOutputIndices (expected : Nat) : List (Nat × Json) → ProviderResult Unit
  | [] => .ok ()
  | (actual, _) :: rest =>
    if actual ≠ expected then
      refuse ("OpenAI response output indices were not contiguous: expected " ++ toString expected
        ++ ", found " ++ toString actual)
    else validateOutputIndices (expected + 1) rest

/-- The identity of an item under one field: items of different types have different ones. -/
abbrev OutputIdentity := String × String × String

abbrev OutputIdentities := List (OutputIdentity × Nat)

def outputIdentities (itemType : String) (item : Json) : List OutputIdentity :=
  stableFields.filterMap fun field =>
    ((item.getStr field).bind nonempty).map fun identity => (itemType, field, identity)

def recordIdentities (index : Nat) (identities : OutputIdentities) :
    List OutputIdentity → ProviderResult OutputIdentities
  | [] => .ok identities
  | key :: rest =>
    match identities.lookup key with
    | some previousIndex =>
      refuse ("OpenAI output item type " ++ key.1 ++ " duplicated stable " ++ key.2.1 ++ " "
        ++ key.2.2 ++ " at output indices " ++ toString previousIndex ++ " and " ++ toString index)
    | none => recordIdentities index ((key, index) :: identities) rest

def validateOutputIdentities (identities : OutputIdentities) : List (Nat × Json) → ProviderResult Unit
  | [] => .ok ()
  | (index, item) :: rest => do
    let itemType ← openaiReplayItemType item "OpenAI output item"
    let recorded ← recordIdentities index identities (outputIdentities itemType item)
    validateOutputIdentities recorded rest

def validateOutputItems (output : List (Nat × Json)) : ProviderResult Unit := do
  validateOutputIndices 0 output
  validateOutputIdentities [] output

/-- A response under way to its materialized form. -/
structure StagedOutput where
  lanes : OutputLanes := {}
  stopReason : ModelStopReason := .complete
  stopDetails : Option ModelStopDetails := none

def StagedOutput.refusing (refusal : String) (lanes : OutputLanes) : StagedOutput where
  lanes := lanes
  stopReason := .refusal
  stopDetails := some { category := none, explanation := some refusal }

def materializeItems (provider : ProviderKind) (staged : StagedOutput) :
    List (Nat × Json) → ProviderResult StagedOutput
  | [] => .ok staged
  | (_, item) :: rest => do
    let (lanes, refused) ← parseResponseOutputItem text provider staged.lanes item
    match refused with
    | some refusal => materializeItems provider (.refusing refusal lanes) rest
    | none => materializeItems provider { staged with lanes := lanes } rest

def materializeOutputItems (outputItems : OutputItems) (provider : ProviderKind) :
    ProviderResult ResponsesMaterializedOutput := do
  validateOutputItems outputItems.toList
  let staged ← materializeItems text provider {} outputItems.toList
  let lanes : OutputLanes := if staged.stopReason = .refusal then {} else staged.lanes
  .ok
    { items := lanes.items
      providerReplay := lanes.providerReplay
      stopReason := staged.stopReason
      stopDetails := staged.stopDetails }

namespace ResponsesStreamState

def new (provider : ProviderKind) : ResponsesStreamState := { provider := provider }

def outputItemEvent (event : Json) (eventType : String) : ProviderResult (Nat × Json × String) := do
  let index ← match (event.get "output_index").bind Json.asU64 with
    | some index => .ok index
    | none => refuse ("OpenAI " ++ eventType ++ " missing valid output_index")
  let item ← match event.get "item" with
    | some item => .ok item
    | none => refuse ("OpenAI " ++ eventType ++ " missing item")
  let itemType ← openaiReplayItemType item ("OpenAI " ++ eventType ++ " item")
  .ok (index, item, itemType)

variable (state : ResponsesStreamState)

def recordAddedItem (event : Json) : ProviderResult ResponsesStreamState := do
  let (index, item, itemType) ← outputItemEvent event "response.output_item.added"
  validateOpenaiAddedItemPolicy itemType item
  if state.outputItems.contains index then
    refuse ("OpenAI response.output_item.added arrived after done at output_index "
      ++ toString index)
  else if state.addedItems.contains index then
    refuse ("OpenAI response.output_item.added duplicated output_index " ++ toString index)
  else .ok { state with addedItems := state.addedItems.insert index item }

def recordDoneItem (event : Json) : ProviderResult ResponsesStreamState := do
  let (index, item, _) ← outputItemEvent event "response.output_item.done"
  match state.addedItems[index]? with
  | some addedItem => reconcileOpenaiAddedItem index addedItem item
  | none => .ok ()
  if state.outputItems.contains index then
    refuse ("OpenAI response.output_item.done duplicated output_index " ++ toString index)
  else .ok { state with outputItems := state.outputItems.insert index item }

def reconcileAddedItems : ProviderResult Unit :=
  state.addedItems.toList.forM fun (index, addedItem) =>
    match state.outputItems[index]? with
    | some doneItem => reconcileOpenaiAddedItem index addedItem doneItem
    | none =>
      refuse ("OpenAI response completed with pending output item at output_index "
        ++ toString index)

/-- An item that was done stays; the completed response supplies the others. -/
def reconcileTerminalItems (outputItems reconciledItems : OutputItems) (index : Nat) :
    List Json → ProviderResult OutputItems
  | [] => .ok reconciledItems
  | item :: rest =>
    match outputItems[index]? with
    | some doneItem => do
      reconcileOpenaiItemIdentity index "done" doneItem "terminal" item
      reconcileTerminalItems outputItems reconciledItems (index + 1) rest
    | none =>
      reconcileTerminalItems outputItems (reconciledItems.insert index item) (index + 1) rest

def reconcileTerminalOutput (output : Json) : ProviderResult OutputItems :=
  match output.asArray with
  | some items => reconcileTerminalItems state.outputItems state.outputItems 0 items
  | none => refuse "OpenAI response.completed response.output was not an array"

section

variable (event : Json)

def completedResponse : ProviderResult Json := do
  let response ← match event.get "response" with
    | some (.object fields) => .ok (Json.object fields)
    | _ => refuse "OpenAI response.completed missing response object"
  if ((response.getStr "id").bind nonempty).isNone then
    refuse "OpenAI response.completed missing response id"
  else .ok ()
  match response.get "status" with
  | some status =>
    if status.asStr ≠ some "completed" then
      refuse ("OpenAI response.completed had invalid status " ++ text.toText status)
    else .ok response
  | none => .ok response

def complete : ProviderResult ResponsesStreamState := do
  let response ← completedResponse text event
  reconcileAddedItems state
  let outputItems ← match response.get "output" with
    | some output => reconcileTerminalOutput state output
    | none => .ok state.outputItems
  let materialized ← materializeOutputItems text outputItems state.provider
  .ok
    { state with
      outputItems := outputItems
      usage := (response.get "usage").bind openaiUsage
      materialized := some materialized
      completed := true }

def failed : ProviderError :=
  let code := (event.pointer ["response", "error", "code"]).bind Json.asStr
  let message :=
    ((event.pointer ["response", "error", "message"]).bind Json.asStr).or (some "response.failed")
  openaiProviderErrorFromCode code (openaiErrorMessage text code message event)

def incomplete : ProviderError :=
  let reason := (event.pointer ["response", "incomplete_details", "reason"]).bind Json.asStr
  let status := (event.pointer ["response", "status"]).bind Json.asStr
  .incomplete (status.getD "incomplete") (reason.getD "unknown")

def errorEvent : ProviderError :=
  let code := event.getStr "code"
  let message := ((event.get "message").or (event.get "code")).bind Json.asStr
  openaiProviderErrorFromCode code
    ("Codex error: " ++ openaiErrorMessage text code message event)

def processEvent : ProviderResult (ResponsesStreamState × SseControl) :=
  match event.getStr "type" with
  | some "response.output_item.added" => (recordAddedItem state event).map fun after => (after, .more)
  | some "response.output_item.done" => (recordDoneItem state event).map fun after => (after, .more)
  | some "response.failed" => .error (failed text event)
  | some "response.incomplete" => .error (incomplete event)
  | some "response.completed" => (complete text state event).map fun after => (after, .stop)
  | some "error" => .error (errorEvent text event)
  | _ => .ok (state, .more)

end

def processSseEvent : SseEvent → ProviderResult (ResponsesStreamState × SseControl)
  | .json event => processEvent text state event
  | .malformedJson => refuse "OpenAI response stream contained malformed JSON event data"
  | .done => .ok (state, .more)

def finish : ProviderResult ModelResponse :=
  match state.completed, state.materialized with
  | true, some materialized =>
    .ok
      { assistant := { items := materialized.items }
        providerReplay := materialized.providerReplay
        usage := state.usage
        stopReason := materialized.stopReason
        stopDetails := materialized.stopDetails }
  | _, _ => refuse "OpenAI response stream ended before response.completed"

end ResponsesStreamState

def parseResponsesStream (provider : ProviderKind) (events : List SseEvent) :
    ProviderResult ModelResponse := do
  let state ← Library.consume (ResponsesStreamState.processSseEvent text) (.new provider) events
  state.finish

end PiRelay.AgentProvider
