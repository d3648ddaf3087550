import PiRelay.AgentVocab
import PiRelay.Library.Fallible
import PiRelay.Library.Json

/-! The items of an OpenAI response and the policy by which the adapter admits them. What
the adapter projects into its own messages is checked; known passive items pass as they
are; everything a client would have to execute, and everything unknown, is refused. -/
namespace PiRelay.AgentProvider

open AgentVocab
open Library (Json)

inductive ProviderError where
  | provider (message : String)
  | json (message : String)
  | status (code : Nat) (message : String)
  | transient (message : String)
  | incomplete (status reason : String)

abbrev ProviderResult := Except ProviderError

def refuse {α : Type} (message : String) : ProviderResult α := .error (.provider message)

def canonicalToolNameForProvider (provider : ProviderKind) (name : String) : String :=
  match provider with
  | .openAi =>
    match name with
    | "apply_patch" => "Edit"
    | "web_search" => "WebSearch"
    | "web_fetch" => "WebFetch"
    | other => other
  | .claude =>
    match name with
    | "str_replace_based_edit_tool" => "Edit"
    | "web_search" => "WebSearch"
    | "web_fetch" => "WebFetch"
    | other => other

def nonempty (text : String) : Option String := if text.isEmpty then none else some text

variable (item : Json)

def openaiReplayItemType (context : String) : ProviderResult String :=
  if item.isObject then
    match (item.getStr "type").bind nonempty with
    | some itemType => .ok itemType
    | none => refuse (context ++ " missing nonempty string type")
  else refuse (context ++ " was not an object")

def openaiRequiredString (itemType field : String) : ProviderResult String :=
  match (item.getStr field).bind nonempty with
  | some value => .ok value
  | none => refuse ("OpenAI " ++ itemType ++ " missing nonempty string " ++ field)

def openaiRequiredArray (itemType field : String) : ProviderResult (List Json) :=
  match item.getArray field with
  | some items => .ok items
  | none => refuse ("OpenAI " ++ itemType ++ " missing " ++ field ++ " array")

def validateAgentMessagePart (part : Json) : ProviderResult Unit := do
  let partType ← openaiReplayItemType part "OpenAI agent_message content part"
  match partType with
  | "input_text" =>
    if (part.getStr "text").isNone then refuse "OpenAI agent_message input_text missing text"
    else .ok ()
  | "encrypted_content" =>
    let _ ← openaiRequiredString part "agent_message encrypted_content" "encrypted_content"
    .ok ()
  | partType => refuse ("OpenAI agent_message contained unsupported content part type " ++ partType)

def validateOpenaiAgentMessage : ProviderResult Unit := do
  let _ ← openaiRequiredString item "agent_message" "author"
  let _ ← openaiRequiredString item "agent_message" "recipient"
  let content ← openaiRequiredArray item "agent_message" "content"
  content.forM validateAgentMessagePart

def validateOpenaiFunctionCall : ProviderResult Unit := do
  let _ ← openaiRequiredString item "function_call" "call_id"
  let _ ← openaiRequiredString item "function_call" "name"
  if (item.getStr "arguments").isNone then refuse "OpenAI function_call missing string arguments"
  else .ok ()

def validateOpenaiCustomToolCall : ProviderResult Unit := do
  let _ ← openaiRequiredString item "custom_tool_call" "call_id"
  let _ ← openaiRequiredString item "custom_tool_call" "name"
  if (item.getStr "input").isNone then refuse "OpenAI custom_tool_call missing string input"
  else .ok ()

def validateOutputMessagePart (part : Json) : ProviderResult Unit := do
  let partType ← openaiReplayItemType part "OpenAI message content part"
  match partType with
  | "output_text" =>
    if (part.getStr "text").isNone then refuse "OpenAI output_text content missing text"
    else .ok ()
  | "refusal" =>
    if ((part.getStr "refusal").bind nonempty).isSome then .ok ()
    else refuse "OpenAI refusal content missing nonempty refusal text"
  | partType => refuse ("OpenAI message contained unsupported content part type " ++ partType)

def validateOpenaiOutputMessage : ProviderResult Unit :=
  if item.getStr "role" ≠ some "assistant" then
    refuse "OpenAI message output missing assistant role"
  else
    match item.getArray "content" with
    | none => refuse "OpenAI message output missing content array"
    | some content => content.forM validateOutputMessagePart

inductive OpenAiOrdinaryItemClass where
  | message
  | agentMessage
  | functionCall
  | customToolCall
  | hostedOrPassive
  | clientExecuted
deriving DecidableEq

def clientExecutedTypes : List String :=
  ["local_shell_call", "shell_call", "apply_patch_call", "computer_call", "mcp_approval_request"]

def passiveTypes : List String :=
  ["reasoning", "web_search_call", "file_search_call", "code_interpreter_call",
    "image_generation_call", "mcp_call", "mcp_list_tools", "tool_search_output",
    "additional_tools", "compaction", "context_compaction", "function_call_output",
    "custom_tool_call_output", "local_shell_call_output", "shell_call_output",
    "apply_patch_call_output", "computer_call_output", "mcp_approval_response"]

def classifyToolSearchCall : ProviderResult OpenAiOrdinaryItemClass :=
  match item.getStr "execution" with
  | some "server" => .ok .hostedOrPassive
  | some "client" => .ok .clientExecuted
  | some execution => refuse ("OpenAI tool_search_call had unknown execution mode " ++ execution)
  | none => refuse "OpenAI tool_search_call missing string execution mode"

def classifyOpenaiOrdinaryItem (itemType : String) (item : Json) :
    ProviderResult OpenAiOrdinaryItemClass :=
  if itemType = "message" then .ok .message
  else if itemType = "agent_message" then .ok .agentMessage
  else if itemType = "function_call" then .ok .functionCall
  else if itemType = "custom_tool_call" then .ok .customToolCall
  else if itemType = "tool_search_call" then classifyToolSearchCall item
  else if itemType ∈ clientExecutedTypes then .ok .clientExecuted
  else if itemType ∈ passiveTypes then .ok .hostedOrPassive
  else
    refuse ("OpenAI returned unknown output item type " ++ itemType
      ++ "; refusing to assume it requires no client response")

def refuseClientExecuted {α : Type} (itemType : String) : ProviderResult α :=
  refuse ("OpenAI returned unsupported client-executed action type " ++ itemType)

def validateOpenaiOrdinaryItemPolicy (itemType : String) (item : Json) :
    ProviderResult OpenAiOrdinaryItemClass := do
  let itemClass ← classifyOpenaiOrdinaryItem itemType item
  match itemClass with
  | .message => validateOpenaiOutputMessage item
  | .agentMessage => validateOpenaiAgentMessage item
  | .functionCall => validateOpenaiFunctionCall item
  | .customToolCall => validateOpenaiCustomToolCall item
  | .hostedOrPassive => .ok ()
  | .clientExecuted => refuseClientExecuted itemType
  .ok itemClass

/-- An added item may be partial; the item that is done has to give the execution mode. -/
def validateOpenaiAddedItemPolicy (itemType : String) (item : Json) : ProviderResult Unit := do
  let itemClass ←
    if itemType = "tool_search_call" ∧ item.getStr "execution" = none then
      .ok OpenAiOrdinaryItemClass.hostedOrPassive
    else classifyOpenaiOrdinaryItem itemType item
  if itemClass = .clientExecuted then refuseClientExecuted itemType else .ok ()

def isOpenaiCompactionItem : Bool :=
  item.getStr "type" == some "compaction" || item.getStr "type" == some "compaction_summary"

end PiRelay.AgentProvider
