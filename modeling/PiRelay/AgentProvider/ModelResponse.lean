import Mathlib.Data.List.Infix
import PiRelay.AgentProvider.OpenAiTranscript
import PiRelay.Library.EventStream

/-! What the stream parsers of both providers share: the events they are fed, the response
they produce and the ways they fail. -/
namespace PiRelay.AgentProvider

open AgentVocab
open Library (Json Control)

inductive SseEvent where
  | json (event : Json)
  | malformedJson
  | done

/-- What a parser asks of the reader after an event. -/
abbrev SseControl := Control

/-- The `type` of an event that carries JSON. -/
def SseEvent.eventType : SseEvent → Option String
  | .json event => event.getStr "type"
  | .malformedJson | .done => none

inductive ModelStopReason where
  | complete
  | maxOutputTokens
  | refusal
  | compaction
deriving DecidableEq

structure ModelStopDetails where
  category : Option String := none
  explanation : Option String := none

/-- Token counts; what the transport adds from headers is left out. -/
structure ProviderUsage where
  inputTokens : Option Nat := none
  outputTokens : Option Nat := none
  totalTokens : Option Nat := none
  cacheReadInputTokens : Option Nat := none
  cacheCreationInputTokens : Option Nat := none
  rawProviderUsage : Option Json := none

structure ModelResponse where
  assistant : AssistantMessage
  providerReplay : List ProviderReplayItem
  usage : Option ProviderUsage
  stopReason : ModelStopReason
  stopDetails : Option ModelStopDetails

/-- What the parsers use of other code besides: the quoted text of a string, why a text is not
JSON, and how a tool is displayed. -/
structure StreamText extends ProviderText where
  debugText : String → String
  parseError : String → String
  toolDisplay : String → ReplayDisplayKind → Option Json → Option ReplayDisplay

def newWithDisplay (text : StreamText) (provider : ProviderKind) (raw : Json)
    (display : Option ReplayDisplay) : ProviderReplayItem where
  provider := provider
  rawJson := text.toText raw
  display := display

def pushTextItem : List AssistantItem → String → List AssistantItem
  | [], text => if text.isEmpty then [] else [.text text]
  | [.text previous], text => if text.isEmpty then [.text previous] else [.text (previous ++ text)]
  | item :: rest, text => item :: pushTextItem rest text

/-- A message with the code it stands under, unless it names the code itself. -/
def codedMessage (code : Option String) (message : String) : String :=
  match code with
  | some code => if code.toList <:+: message.toList then message else code ++ ": " ++ message
  | none => message

def callKeys (items : List AssistantItem) : List (ToolCallId × String) :=
  (AssistantMessage.mk items).toolCalls.map ToolCall.key

@[simp] theorem callKeys_nil : callKeys [] = [] := rfl

variable (items : List AssistantItem)

@[simp] theorem callKeys_append_toolCall (call : ToolCall) :
    callKeys (items ++ [.toolCall call]) = callKeys items ++ [call.key] := by
  simp [callKeys, AssistantMessage.toolCalls]

@[simp] theorem toolCalls_pushTextItem (text : String) :
    (AssistantMessage.mk (pushTextItem items text)).toolCalls =
      (AssistantMessage.mk items).toolCalls := by
  fun_induction pushTextItem items text with
  | case1 | case2 | case3 | case4 => rfl
  | case5 item _ text _ ih =>
    cases item with
    | text => exact ih
    | toolCall call => exact congrArg (call :: ·) ih

@[simp] theorem callKeys_pushTextItem (text : String) :
    callKeys (pushTextItem items text) = callKeys items := by
  rw [callKeys, toolCalls_pushTextItem, callKeys]

end PiRelay.AgentProvider
