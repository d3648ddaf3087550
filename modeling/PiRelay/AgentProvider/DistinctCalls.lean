import PiRelay.AgentProvider.ContentBlocks

/-! Whether the calls of an accepted response have distinct names, for both parsers. The
Anthropic parser takes the calls from the blocks as they are, so they are distinct exactly
when the blocks were; what holds of the OpenAI parser is in the module before. -/
namespace PiRelay.AgentProvider

open AgentVocab AnthropicStreamState List
open Library (Json bind_eq_ok EndsAt)

/-- The pair that names the call of a content block. -/
def blockCallKey (block : Json) : Option (ToolCallId × String) :=
  if block.getStr "type" = some "tool_use" then
    some (validatedString block "id", canonicalAnthropicToolName (validatedString block "name"))
  else none

def startedCallKey : SseEvent → Option (ToolCallId × String)
  | .json event =>
    if event.getStr "type" = some "content_block_start" then
      (event.get "content_block").bind blockCallKey
    else none
  | .malformedJson | .done => none

def startedCalls (events : List SseEvent) : List (ToolCallId × String) :=
  (eventsBefore "message_stop" events).filterMap startedCallKey

def eventStopReason (event : Json) : Option String :=
  (event.get "delta").bind (·.getStr "stop_reason")

def isRefusalEvent : SseEvent → Bool
  | .json event =>
    event.getStr "type" == some "message_delta" && eventStopReason event == some "refusal"
  | .malformedJson | .done => false

variable {block : Json} {text : StreamText}

theorem SameHead.blockCallKey {filled : Json} (same : SameHead block filled) :
    blockCallKey filled = blockCallKey block := by
  rw [AgentProvider.blockCallKey, AgentProvider.blockCallKey, validatedString, validatedString,
    same "type" (by simp), same "id" (by simp), same "name" (by simp)]
  rfl

theorem claudeToolCall_key {call : ToolCall} (isTool : block.getStr "type" = some "tool_use")
    (read : claudeToolCall text block = .ok call) : blockCallKey block = some call.key := by
  rw [claudeToolCall] at read
  split at read
  · rename_i id isId
    obtain ⟨_, sameId, named⟩ := bind_eq_ok.mp read
    dsimp only at named
    split at named
    · rename_i name isName
      obtain ⟨_, sameName, given⟩ := bind_eq_ok.mp named
      split at given
      · obtain ⟨_, -, made⟩ := bind_eq_ok.mp given
        cases sameId
        cases sameName
        cases made
        rw [blockCallKey, if_pos isTool, validatedString, validatedString, isId, isName]
        rfl
      · cases given
    · cases named
  · cases read

theorem pushAnthropicContentBlock_adds {items after : List AssistantItem}
    {replay replayAfter : List ProviderReplayItem}
    (pushed : pushAnthropicContentBlock text block items replay = .ok (after, replayAfter)) :
    callKeys after = callKeys items ++ (blockCallKey block).toList := by
  obtain ⟨_, typed, added⟩ := bind_eq_ok.mp pushed
  have isType := openaiReplayItemType_eq_ok typed
  split at added
  · have noCall : blockCallKey block = none := by
      rw [blockCallKey, isType]
      simp
    split at added <;> cases added <;> simp [noCall]
  · obtain ⟨_, read, made⟩ := bind_eq_ok.mp added
    cases made
    rw [claudeToolCall_key isType read]
    simp
  · rename_i notText notTool
    have noCall : blockCallKey block = none := by
      rw [blockCallKey, isType, if_neg]
      rintro ⟨⟩
      exact notTool rfl
    cases added
    simp [noCall]

namespace AnthropicStreamState

def openCall (state : AnthropicStreamState) : Option (ToolCallId × String) :=
  state.activeContentBlock.bind fun active => blockCallKey active.2

/-- The calls received so far, the open block's included. -/
def calls (state : AnthropicStreamState) : List (ToolCallId × String) :=
  callKeys state.items ++ state.openCall.toList

/-- What an event leaves when it neither opens a block nor gives a stop reason. -/
structure KeepsReason (state after : AnthropicStreamState) : Prop where
  stopReason : after.stopReason = state.stopReason
  terminalStopReason : after.terminalStopReason = state.terminalStopReason
  messageStopped : after.messageStopped = state.messageStopped

variable {state after : AnthropicStreamState} {index : Nat} {text : StreamText} {event : Json}

theorem startContentBlock_adds {block : Json}
    (started : state.startContentBlock index block = .ok after) :
    after.calls = state.calls ++ (blockCallKey block).toList ∧ KeepsReason state after := by
  rw [startContentBlock] at started
  split at started
  · cases started
  · rename_i closed
    split at started
    · cases started
    · obtain ⟨_, -, opened⟩ := bind_eq_ok.mp started
      cases opened
      constructor
      · simp [calls, openCall, closed, (sameHead_normalize block).blockCallKey]
      · exact ⟨rfl, rfl, rfl⟩

theorem applyContentDelta_keeps {delta : Json}
    (applied : state.applyContentDelta index delta = .ok after) :
    after.calls = state.calls ∧ KeepsReason state after := by
  rw [applyContentDelta] at applied
  split at applied
  · cases applied
  · rename_i activeIndex block isActive
    split at applied
    · cases applied
    · obtain ⟨_, isFilled, written⟩ := bind_eq_ok.mp applied
      cases written
      constructor
      · simp [calls, openCall, isActive, (sameHead_applyDelta isFilled).blockCallKey]
      · exact ⟨rfl, rfl, rfl⟩

theorem finishContentBlock_keeps (finished : state.finishContentBlock text index = .ok after) :
    after.calls = state.calls ∧ KeepsReason state after := by
  rw [finishContentBlock] at finished
  split at finished
  · cases finished
  · rename_i activeIndex block isActive
    split at finished
    · cases finished
    · obtain ⟨_, isFinal, pushed⟩ := bind_eq_ok.mp finished
      obtain ⟨⟨_, _⟩, isPushed, closed⟩ := bind_eq_ok.mp pushed
      cases closed
      constructor
      · simp [calls, openCall, isActive, pushAnthropicContentBlock_adds isPushed,
          (sameHead_finalize isFinal).blockCallKey]
      · exact ⟨rfl, rfl, rfl⟩

theorem requireClosed_eq_ok {eventType : String} (closed : state.requireClosed eventType = .ok ()) :
    state.activeContentBlock = none := by
  rw [requireClosed] at closed
  split at closed
  · cases closed
  · split at closed
    · cases closed
    · assumption

theorem modelStopReason_refusal {stopReason : String} {reason : ModelStopReason}
    (known : modelStopReason stopReason = .ok reason) :
    reason = .refusal ↔ stopReason = "refusal" := by
  unfold modelStopReason at known
  split at known <;> cases known <;> simp

theorem terminate_eq_ok {stopReason : String} {details : Option ModelStopDetails}
    (terminated : state.terminate text stopReason details = .ok after) :
    after.calls = state.calls ∧ after.messageStopped = state.messageStopped ∧
      (after.stopReason = .refusal ↔ stopReason = "refusal") ∧
      after.terminalStopReason = some stopReason ∧
      ∀ existing, state.terminalStopReason = some existing → existing = stopReason := by
  obtain ⟨⟨⟩, isSame, merged⟩ := bind_eq_ok.mp terminated
  obtain ⟨details, -, reasoned⟩ := bind_eq_ok.mp merged
  obtain ⟨_, known, written⟩ := bind_eq_ok.mp reasoned
  cases written
  have agreed : ∀ existing, state.terminalStopReason = some existing → existing = stopReason := by
    intro existing isExisting
    rw [requireSameReason, isExisting] at isSame
    dsimp only at isSame
    split at isSame
    · cases isSame
    · rename_i same
      simpa using same
  refine ⟨rfl, rfl, modelStopReason_refusal known, ?_, agreed⟩
  cases isTerminal : state.terminalStopReason with
  | none => rfl
  | some existing =>
    rw [agreed existing isTerminal]
    rfl

theorem deltaStopReason_eq_ok {delta : Json} {hasDetails hasUsage : Bool}
    {stopReason : Option String}
    (read : deltaStopReason text delta hasDetails hasUsage = .ok stopReason) :
    stopReason = delta.getStr "stop_reason" := by
  rw [deltaStopReason] at read
  rw [Json.getStr]
  split at read
  · rename_i absent
    rw [absent]
    split at read
    · cases read
    · split at read
      · cases read
      · cases read
        rfl
  · rename_i isNull
    rw [isNull]
    split at read
    · cases read
    · cases read
      rfl
  · rename_i reason isReason
    rw [isReason]
    split at read
    · cases read
    · cases read
      rfl
  · cases read

theorem eventObject_eq_ok {object : Json} {eventType name : String}
    (read : eventObject event eventType name = .ok object) : event.get name = some object := by
  rw [eventObject] at read
  split at read
  · rename_i fields isObject
    cases read
    exact isObject
  · cases read

theorem messageDelta_eq_ok (ran : state.messageDelta text event = .ok after) :
    after.calls = state.calls ∧ after.messageStopped = state.messageStopped ∧
      ((eventStopReason event = none ∧ KeepsReason state after) ∨
        ∃ stopReason, eventStopReason event = some stopReason ∧
          (after.stopReason = .refusal ↔ stopReason = "refusal") ∧
          after.terminalStopReason = some stopReason ∧
          ∀ existing, state.terminalStopReason = some existing → existing = stopReason) := by
  obtain ⟨_, -, opened⟩ := bind_eq_ok.mp ran
  obtain ⟨_, isDelta, updated⟩ := bind_eq_ok.mp opened
  obtain ⟨_, -, detailed⟩ := bind_eq_ok.mp updated
  obtain ⟨_, -, reasoned⟩ := bind_eq_ok.mp detailed
  obtain ⟨stopReason, read, chosen⟩ := bind_eq_ok.mp reasoned
  have isReason : eventStopReason event = stopReason := by
    rw [eventStopReason, eventObject_eq_ok isDelta, deltaStopReason_eq_ok read]
    rfl
  split at chosen
  · rename_i reason
    obtain ⟨sameCalls, sameStopped, refusal, terminal, agreed⟩ := terminate_eq_ok chosen
    exact ⟨sameCalls, sameStopped, Or.inr ⟨reason, isReason, refusal, terminal, agreed⟩⟩
  · cases chosen
    exact ⟨rfl, rfl, Or.inl ⟨isReason, rfl, rfl, rfl⟩⟩

/-- What an event that does not end the message does to the calls and the stop reason. -/
structure Receives (state : AnthropicStreamState) (event : SseEvent)
    (after : AnthropicStreamState) : Prop where
  goesOn : event.hasType "message_stop" = false
  calls : after.calls = state.calls ++ (startedCallKey event).toList
  messageStopped : after.messageStopped = state.messageStopped
  reason : (isRefusalEvent event = false ∧ KeepsReason state after) ∨
    ∃ stopReason, (isRefusalEvent event = true ↔ stopReason = "refusal") ∧
      (after.stopReason = .refusal ↔ stopReason = "refusal") ∧
      after.terminalStopReason = some stopReason ∧
      ∀ existing, state.terminalStopReason = some existing → existing = stopReason

theorem Receives.of_type {type : String} (isType : event.getStr "type" = some type)
    (other : type ∉ ["message_stop", "content_block_start", "message_delta"])
    (sameCalls : after.calls = state.calls) (keeps : KeepsReason state after) :
    Receives state (.json event) after := by
  simp only [mem_cons, not_mem_nil, or_false, not_or] at other
  constructor
  · simpa [SseEvent.hasType, SseEvent.eventType, isType] using other.1
  · simpa [startedCallKey, isType, other.2.1] using sameCalls
  · exact keeps.messageStopped
  · left
    constructor
    · simp [isRefusalEvent, isType, other.2.2]
    · exact keeps

theorem contentBlockStart_receives (isType : event.getStr "type" = some "content_block_start")
    (ran : state.contentBlockStart event = .ok after) : Receives state (.json event) after := by
  obtain ⟨_, -, indexed⟩ := bind_eq_ok.mp ran
  obtain ⟨_, -, read⟩ := bind_eq_ok.mp indexed
  obtain ⟨_, isBlock, started⟩ := bind_eq_ok.mp read
  obtain ⟨added, keeps⟩ := startContentBlock_adds started
  constructor
  · simp [SseEvent.hasType, SseEvent.eventType, isType]
  · simpa [startedCallKey, isType, eventObject_eq_ok isBlock] using added
  · exact keeps.messageStopped
  · left
    constructor
    · simp [isRefusalEvent, isType]
    · exact keeps

theorem messageDelta_receives (isType : event.getStr "type" = some "message_delta")
    (ran : state.messageDelta text event = .ok after) : Receives state (.json event) after := by
  obtain ⟨sameCalls, sameStopped, reason⟩ := messageDelta_eq_ok ran
  constructor
  · simp [SseEvent.hasType, SseEvent.eventType, isType]
  · simpa [startedCallKey, isType] using sameCalls
  · exact sameStopped
  · obtain ⟨noReason, keeps⟩ | ⟨stopReason, isReason, refusal, terminal, agreed⟩ := reason
    · left
      constructor
      · simp [isRefusalEvent, isType, noReason]
      · exact keeps
    · right
      refine ⟨stopReason, ?_, refusal, terminal, agreed⟩
      simp [isRefusalEvent, isType, isReason]

theorem absorb_receives (goesOn : event.getStr "type" ≠ some "message_stop")
    (ran : state.absorb text event = .ok after) : Receives state (.json event) after := by
  rw [absorb] at ran
  split at ran
  · rename_i isType
    rw [messageStart] at ran
    split at ran
    · cases ran
    · cases ran
      exact .of_type isType (by simp) rfl ⟨rfl, rfl, rfl⟩
  · rename_i isType
    exact contentBlockStart_receives isType ran
  · rename_i isType
    obtain ⟨_, -, indexed⟩ := bind_eq_ok.mp ran
    obtain ⟨index, -, read⟩ := bind_eq_ok.mp indexed
    obtain ⟨_, -, applied⟩ := bind_eq_ok.mp read
    obtain ⟨sameCalls, keeps⟩ := applyContentDelta_keeps applied
    exact .of_type isType (by simp) sameCalls keeps
  · rename_i isType
    obtain ⟨_, -, indexed⟩ := bind_eq_ok.mp ran
    obtain ⟨index, -, finished⟩ := bind_eq_ok.mp indexed
    obtain ⟨sameCalls, keeps⟩ := finishContentBlock_keeps finished
    exact .of_type isType (by simp) sameCalls keeps
  · rename_i isType
    exact messageDelta_receives isType ran
  · cases ran
  · rename_i notStart notBlockStart notBlockDelta notBlockStop notDelta notError
    cases ran
    have noStart : event.getStr "type" ≠ some "content_block_start" := notBlockStart
    have noDelta : event.getStr "type" ≠ some "message_delta" := notDelta
    constructor
    · simpa [SseEvent.hasType, SseEvent.eventType] using goesOn
    · simp [startedCallKey, noStart]
    · rfl
    · left
      constructor
      · simp [isRefusalEvent, noDelta]
      · exact ⟨rfl, rfl, rfl⟩

/-- The event that ends the message finds its blocks closed and leaves its items. -/
structure Stops (state : AnthropicStreamState) (event : SseEvent) (after : AnthropicStreamState) :
    Prop where
  isType : event.hasType "message_stop" = true
  closed : state.activeContentBlock = none
  items : after.items = state.items
  stopReason : after.stopReason = state.stopReason

theorem processSseEvent_cases {event : SseEvent} {control : SseControl}
    (ran : state.processSseEvent text event = .ok (after, control)) :
    (control = .more ∧ Receives state event after) ∨ (control = .stop ∧ Stops state event after) := by
  cases event with
  | malformedJson => cases ran
  | done =>
    cases ran
    left
    refine ⟨rfl, rfl, ?_, rfl, Or.inl ⟨rfl, rfl, rfl, rfl⟩⟩
    simp [startedCallKey]
  | json =>
    obtain ⟨_, -, chosen⟩ := bind_eq_ok.mp ran
    split at chosen
    · rename_i isType
      obtain ⟨stopped, rfl⟩ := map_control_eq_ok chosen
      obtain ⟨⟨⟩, closed, checked⟩ := bind_eq_ok.mp stopped
      split at checked
      · cases checked
      · cases checked
        right
        refine ⟨rfl, ?_, requireClosed_eq_ok closed, rfl, rfl⟩
        simp [SseEvent.hasType, SseEvent.eventType, isType]
    · rename_i goesOn
      obtain ⟨absorbed, rfl⟩ := map_control_eq_ok chosen
      exact Or.inl ⟨rfl, absorb_receives goesOn absorbed⟩

theorem endsAt_message_stop (text : StreamText) :
    EndsAt (processSseEvent text) (SseEvent.hasType "message_stop") where
  ends_of_stop ran := by
    obtain ⟨goesOn, -⟩ | ⟨-, stops⟩ := processSseEvent_cases ran
    · cases goesOn
    · exact stops.isType
  goes_on_of_more ran := by
    obtain ⟨-, receives⟩ | ⟨stop, -⟩ := processSseEvent_cases ran
    · exact receives.goesOn
    · cases stop

/-- The calls and the stop reason of the state are those of the events absorbed so far. -/
structure Streams (seen : List SseEvent) (state : AnthropicStreamState) : Prop where
  calls : state.calls = seen.filterMap startedCallKey
  notStopped : state.messageStopped = false
  reason : state.stopReason = .refusal ↔ state.terminalStopReason = some "refusal"
  refusal : state.terminalStopReason = some "refusal" ↔ seen.any isRefusalEvent = true

theorem Streams.start : Streams [] {} where
  calls := rfl
  notStopped := rfl
  reason := by simp
  refusal := by simp

theorem Streams.step {seen : List SseEvent} {event : SseEvent} (streams : Streams seen state)
    (ran : state.processSseEvent text event = .ok (after, .more)) :
    Streams (seen ++ [event]) after := by
  obtain ⟨-, receives⟩ | ⟨stop, -⟩ := processSseEvent_cases ran
  · constructor
    · rw [receives.calls, streams.calls, filterMap_append]
      cases started : startedCallKey event with
      | none | some => simp [started]
    · rw [receives.messageStopped]
      exact streams.notStopped
    · obtain ⟨-, keeps⟩ | ⟨stopReason, -, refusal, terminal, -⟩ := receives.reason
      · rw [keeps.stopReason, keeps.terminalStopReason]
        exact streams.reason
      · rw [refusal, terminal]
        simp
    · rw [any_append]
      obtain ⟨noRefusal, keeps⟩ | ⟨stopReason, isRefusal, -, terminal, agreed⟩ := receives.reason
      · rw [keeps.terminalStopReason, streams.refusal]
        simp [noRefusal]
      · -- an earlier refusal would have to agree with this stop reason
        have earlier : seen.any isRefusalEvent → stopReason = "refusal" := by
          intro refused
          exact (agreed "refusal" (streams.refusal.mpr refused)).symm
        rw [terminal]
        rw [Option.some.injEq, Bool.or_eq_true, any_cons, any_nil, Bool.or_false]
        rw [isRefusal]
        constructor
        · exact Or.inr
        · rintro (refused | now)
          · exact earlier refused
          · exact now
  · cases stop

end AnthropicStreamState

/-- An accepted response has the calls it started, or none if it was refused. -/
theorem anthropicCalls_eq {events : List SseEvent} {response : ModelResponse}
    (accepted : parseAnthropicStream text events = .ok response) :
    callKeys response.assistant.items =
      if (eventsBefore "message_stop" events).any isRefusalEvent then [] else startedCalls events := by
  obtain ⟨final, ran, finished⟩ := bind_eq_ok.mp accepted
  rw [finish] at finished
  split at finished
  · cases finished
  split at finished
  · cases finished
  rename_i stoppedFlag
  split at finished
  · cases finished
  dsimp only at finished
  split at finished
  · cases finished
  cases finished
  obtain ⟨-, streams⟩ | ⟨last, prior, isLast, streams, stopped⟩ :=
    (endsAt_message_stop text).consume_rule
      (fun streams step => streams.step step) AnthropicStreamState.Streams.start ran
  · rw [streams.notStopped] at stoppedFlag
    simp at stoppedFlag
  · obtain ⟨goesOn, -⟩ | ⟨-, stops⟩ := processSseEvent_cases stopped
    · cases goesOn
    have refused : final.stopReason = .refusal ↔
        (eventsBefore "message_stop" events).any isRefusalEvent := by
      rw [stops.stopReason, streams.reason, streams.refusal]
      rfl
    rw [withoutRefused]
    by_cases refusal : final.stopReason = .refusal
    · rw [if_pos refusal, if_pos (refused.mp refusal)]
      rfl
    · rw [if_neg refusal, if_neg fun isRefused => refusal (refused.mpr isRefused), stops.items]
      have received := streams.calls
      rw [calls, openCall, stops.closed] at received
      simpa [startedCalls, eventsBefore] using received

/-- The calls of an accepted response can be told apart exactly when the response was refused
or, from OpenAI, no delivered call of one wire type names itself like one of the other; from
Anthropic, the started blocks name their calls differently. -/
theorem accepted_calls_distinct_iff (text : StreamText) (provider : ProviderKind) :
    (∀ events response, parseResponsesStream text provider events = .ok response →
      ((response.assistant.toolCalls.map ToolCall.key).Nodup ↔
        (deliveredItems events).any isRefusedItem = true ∨
          CallTypesApart provider (deliveredItems events))) ∧
    (∀ events response, parseAnthropicStream text events = .ok response →
      ((response.assistant.toolCalls.map ToolCall.key).Nodup ↔
        (eventsBefore "message_stop" events).any isRefusalEvent = true ∨
          (startedCalls events).Nodup)) := by
  constructor
  · intro events response accepted
    exact responsesCalls_nodup_iff accepted
  · intro events response accepted
    have received := anthropicCalls_eq accepted
    show (callKeys response.assistant.items).Nodup ↔ _
    rw [received]
    split
    · rename_i refused
      simp [refused]
    · rename_i notRefused
      simp [notRefused]

mutual

/-- The compact text of JSON whose strings need no escapes. -/
def plainText : Json → String
  | .null => "null"
  | .bool value => if value then "true" else "false"
  | .number (.unsigned value) => toString value
  | .number (.other literal) => literal
  | .string value => "\"" ++ value ++ "\""
  | .array items => "[" ++ ",".intercalate (plainItems items) ++ "]"
  | .object fields => "\x7b" ++ ",".intercalate (plainFields fields) ++ "\x7d"

def plainItems : List Json → List String
  | [] => []
  | item :: rest => plainText item :: plainItems rest

def plainFields : List (String × Json) → List String
  | [] => []
  | (name, value) :: rest => ("\"" ++ name ++ "\":" ++ plainText value) :: plainFields rest

end

def sampleStreamText : StreamText where
  toText := plainText
  fromText encoded := if encoded = "\x7b\x7d" then some (.object []) else none
  observationText _ := none
  limitToolOutput output := output
  debugText value := "\"" ++ value ++ "\""
  parseError _ := "expected value at line 1 column 1"
  toolDisplay _ _ _ := none

def sampleEvent (type : String) (fields : List (String × Json)) : SseEvent :=
  .json (.object (("type", .string type) :: fields))

def sampleIndexed (index : Nat) (field : String) (value : Json) : List (String × Json) :=
  [("output_index", .number (.unsigned index)), ("index", .number (.unsigned index)), (field, value)]

def sampleFunctionCall (callId name : String) : Json :=
  .object
    [("type", .string "function_call"), ("call_id", .string callId), ("name", .string name),
      ("arguments", .string "\x7b\x7d")]

def sampleCustomCall (callId name : String) : Json :=
  .object
    [("type", .string "custom_tool_call"), ("call_id", .string callId), ("name", .string name),
      ("input", .string "patch")]

def sampleResponseEvents (first second : Json) : List SseEvent :=
  [sampleEvent "response.output_item.done" (sampleIndexed 0 "item" first),
    sampleEvent "response.output_item.done" (sampleIndexed 1 "item" second),
    sampleEvent "response.completed" [("response", .object [("id", .string "resp_1")])]]

def sampleToolUse (id : String) : Json :=
  .object
    [("type", .string "tool_use"), ("id", .string id), ("name", .string "read"), ("input", .object [])]

/-- A message of two blocks that are opened and closed one after the other. -/
def sampleMessageEvents (first second : Json) : List SseEvent :=
  [sampleEvent "message_start" [],
    sampleEvent "content_block_start" (sampleIndexed 0 "content_block" first),
    sampleEvent "content_block_stop" (sampleIndexed 0 "content_block" first),
    sampleEvent "content_block_start" (sampleIndexed 1 "content_block" second),
    sampleEvent "content_block_stop" (sampleIndexed 1 "content_block" second),
    sampleEvent "message_delta" [("delta", .object [("stop_reason", .string "tool_use")])],
    sampleEvent "message_stop" []]

instance (provider : ProviderKind) (items : List Json) : Decidable (CallTypesApart provider items) :=
  inferInstanceAs (Decidable (∀ function ∈ items, ∀ custom ∈ items,
    function.getStr "type" = some "function_call" →
    custom.getStr "type" = some "custom_tool_call" →
    wireCallKey provider function ≠ wireCallKey provider custom))

def sampleDistinctItems : List SseEvent :=
  sampleResponseEvents (sampleFunctionCall "call_1" "read") (sampleCustomCall "call_2" "apply_patch")

def sampleDistinctBlocks : List SseEvent :=
  sampleMessageEvents (sampleToolUse "toolu_1") (sampleToolUse "toolu_2")

theorem sample_accepted_calls_distinct :
    (∃ response, parseResponsesStream sampleStreamText .openAi sampleDistinctItems = .ok response ∧
      (response.assistant.toolCalls.map ToolCall.key).Nodup) ∧
    (∃ response, parseAnthropicStream sampleStreamText sampleDistinctBlocks = .ok response ∧
      (response.assistant.toolCalls.map ToolCall.key).Nodup) := by
  have distinct := accepted_calls_distinct_iff sampleStreamText .openAi
  constructor
  · refine ⟨_, rfl, (distinct.1 sampleDistinctItems _ rfl).mpr (Or.inr ?_)⟩
    decide +kernel
  · refine ⟨_, rfl, (distinct.2 sampleDistinctBlocks _ rfl).mpr (Or.inr ?_)⟩
    decide +kernel

/-- One id and one name, once as a function and once as a custom tool. -/
def sampleSharedItems : List SseEvent :=
  sampleResponseEvents (sampleFunctionCall "call_1" "apply_patch")
    (sampleCustomCall "call_1" "apply_patch")

def sampleSharedBlocks : List SseEvent :=
  sampleMessageEvents (sampleToolUse "toolu_1") (sampleToolUse "toolu_1")

/-- Neither parser keeps the calls of what it accepts apart. -/
theorem sample_accepted_calls_shared :
    (∃ response, parseResponsesStream sampleStreamText .openAi sampleSharedItems = .ok response ∧
      ¬ (response.assistant.toolCalls.map ToolCall.key).Nodup) ∧
    (∃ response, parseAnthropicStream sampleStreamText sampleSharedBlocks = .ok response ∧
      ¬ (response.assistant.toolCalls.map ToolCall.key).Nodup) := by
  constructor
  · refine ⟨_, rfl, ?_⟩
    decide +kernel
  · refine ⟨_, rfl, ?_⟩
    decide +kernel

end PiRelay.AgentProvider
