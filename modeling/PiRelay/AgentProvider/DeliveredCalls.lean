import Mathlib.Data.List.Nodup
import Mathlib.Data.List.Pairwise
import PiRelay.AgentProvider.ResponsesStream

/-! The calls of an accepted OpenAI response are the calls among the items that its events
delivered. Two of one wire type have different ids; two of different wire types may share
theirs, and the names are made canonical after that was checked. -/
namespace PiRelay.AgentProvider

open AgentVocab List Option
open Library (Json bind_eq_ok EndsAt)

def SseEvent.hasType (type : String) (event : SseEvent) : Bool := event.eventType == some type

def eventsBefore (type : String) (events : List SseEvent) : List SseEvent :=
  events.takeWhile (!·.hasType type)

def doneItem : SseEvent → Option (Nat × Json)
  | .json event =>
    if event.getStr "type" = some "response.output_item.done" then do
      let index ← (event.get "output_index").bind Json.asU64
      let item ← event.get "item"
      some (index, item)
    else none
  | .malformedJson | .done => none

variable (events : List SseEvent)

def doneItems : List (Nat × Json) := events.filterMap doneItem

def listedItems (event : Json) : List Json :=
  ((event.get "response").bind (·.getArray "output")).getD []

def terminalItems : List Json :=
  match events.find? (·.hasType "response.completed") with
  | some (.json event) => listedItems event
  | _ => []

def deliveredItems : List Json :=
  let done := doneItems (eventsBefore "response.completed" events)
  let listed := (terminalItems events).zipIdx.filter fun entry => entry.2 ∉ done.map Prod.fst
  done.map Prod.snd ++ listed.map Prod.fst

/-- The item that is delivered at an output index. -/
def DeliveredAt (index : Nat) (item : Json) : Prop :=
  (index, item) ∈ doneItems (eventsBefore "response.completed" events) ∨
    (index ∉ (doneItems (eventsBefore "response.completed" events)).map Prod.fst ∧
      (terminalItems events)[index]? = some item)

variable {events : List SseEvent} {item : Json} {itemType : String}
    {itemClass : OpenAiOrdinaryItemClass} {text : StreamText} {provider : ProviderKind}
    {output : List (Nat × Json)} {final : StagedOutput}

theorem mem_deliveredItems_iff :
    item ∈ deliveredItems events ↔ ∃ index, DeliveredAt events index item := by
  rw [deliveredItems, mem_append, List.mem_map, List.mem_map]
  constructor
  · rintro (⟨⟨index, _⟩, done, rfl⟩ | ⟨⟨_, index⟩, kept, rfl⟩)
    · exact ⟨index, Or.inl done⟩
    · obtain ⟨inOutput, absent⟩ := mem_filter.mp kept
      exact ⟨index, Or.inr ⟨by simpa using absent, mem_zipIdx_iff_getElem?.mp inOutput⟩⟩
  · rintro ⟨index, done | ⟨absent, listed⟩⟩
    · exact Or.inl ⟨(index, item), done, rfl⟩
    · have inOutput : (item, index) ∈ (terminalItems events).zipIdx :=
        mem_zipIdx_iff_getElem?.mpr listed
      exact Or.inr ⟨(item, index), mem_filter.mpr ⟨inOutput, by simpa using absent⟩, rfl⟩

def isToolCallItem (item : Json) : Bool :=
  item.getStr "type" == some "function_call" || item.getStr "type" == some "custom_tool_call"

def wireCallKey (provider : ProviderKind) (item : Json) : ToolCallId × String :=
  (validatedString item "call_id",
    canonicalToolNameForProvider provider (validatedString item "name"))

def itemCallKey (provider : ProviderKind) (item : Json) : Option (ToolCallId × String) :=
  if isToolCallItem item then some (wireCallKey provider item) else none

def itemToolCall (text : StreamText) (provider : ProviderKind) (item : Json) : Option ToolCall :=
  match item.getStr "type" with
  | some "function_call" => some (parsedToolCall provider item (validatedString item "arguments"))
  | some "custom_tool_call" =>
    let input := Json.object [("input", .string (validatedString item "input"))]
    some (parsedToolCall provider item (text.toText input))
  | _ => none

def isRefusalPart (part : Json) : Bool := part.getStr "type" == some "refusal"

def isRefusedItem (item : Json) : Bool :=
  item.getStr "type" == some "message" && ((item.getArray "content").getD []).any isRefusalPart

theorem openaiReplayItemType_eq_ok {context : String}
    (typed : openaiReplayItemType item context = .ok itemType) :
    item.getStr "type" = some itemType := by
  rw [openaiReplayItemType] at typed
  split at typed
  · split at typed
    · cases typed
      rename_i stored isStored
      obtain ⟨_, isValue, kept⟩ := bind_eq_some_iff.mp isStored
      rw [nonempty] at kept
      split at kept
      · cases kept
      · cases kept
        exact isValue
    · cases typed
  · cases typed

theorem openaiRequiredString_eq_ok {field value : String}
    (required : openaiRequiredString item itemType field = .ok value) :
    (item.getStr field).bind nonempty = some value := by
  rw [openaiRequiredString] at required
  split at required
  · cases required
    assumption
  · cases required

theorem classify_eq_ok (classified : classifyOpenaiOrdinaryItem itemType item = .ok itemClass) :
    (itemClass = .message ↔ itemType = "message") ∧
      (itemClass = .functionCall ↔ itemType = "function_call") ∧
        (itemClass = .customToolCall ↔ itemType = "custom_tool_call") := by
  unfold classifyOpenaiOrdinaryItem classifyToolSearchCall at classified
  repeat' split at classified
  all_goals cases classified <;> simp_all

section

variable (admitted : validateOpenaiOrdinaryItemPolicy itemType item = .ok itemClass)
include admitted

theorem policy_classifies : classifyOpenaiOrdinaryItem itemType item = .ok itemClass := by
  obtain ⟨found, classified, checked⟩ := bind_eq_ok.mp admitted
  have same : found = itemClass := by
    cases found <;>
      · obtain ⟨_, -, kept⟩ := bind_eq_ok.mp checked
        exact Except.ok.inj kept
  rw [same] at classified
  exact classified

theorem policy_call_id (isCall : itemType = "function_call" ∨ itemType = "custom_tool_call") :
    ∃ id, (item.getStr "call_id").bind nonempty = some id := by
  have classified := policy_classifies admitted
  obtain ⟨-, isFunction, isCustom⟩ := classify_eq_ok classified
  rw [validateOpenaiOrdinaryItemPolicy, classified] at admitted
  obtain function | custom := isCall
  · obtain rfl := isFunction.mpr function
    obtain ⟨_, same, checked⟩ := bind_eq_ok.mp admitted
    cases same
    obtain ⟨_, valid, -⟩ := bind_eq_ok.mp checked
    obtain ⟨id, required, -⟩ := bind_eq_ok.mp valid
    exact ⟨id, openaiRequiredString_eq_ok required⟩
  · obtain rfl := isCustom.mpr custom
    obtain ⟨_, same, checked⟩ := bind_eq_ok.mp admitted
    cases same
    obtain ⟨_, valid, -⟩ := bind_eq_ok.mp checked
    obtain ⟨id, required, -⟩ := bind_eq_ok.mp valid
    exact ⟨id, openaiRequiredString_eq_ok required⟩

end

section

variable (parsed : List AssistantItem × Option String)

theorem toolCalls_parseMessagePart (part : Json) :
    (AssistantMessage.mk (parseMessagePart parsed part).1).toolCalls =
      (AssistantMessage.mk parsed.1).toolCalls := by
  rw [parseMessagePart]
  split
  · simp
  · rfl
  · rfl

theorem parseMessagePart_refused (part : Json) :
    (parseMessagePart parsed part).2.isSome = (parsed.2.isSome || isRefusalPart part) := by
  rw [parseMessagePart, isRefusalPart]
  split <;> simp_all

end

theorem foldl_parseMessagePart (content : List Json) (parsed : List AssistantItem × Option String) :
    (AssistantMessage.mk (content.foldl parseMessagePart parsed).1).toolCalls =
        (AssistantMessage.mk parsed.1).toolCalls ∧
      (content.foldl parseMessagePart parsed).2.isSome =
        (parsed.2.isSome || content.any isRefusalPart) := by
  induction content generalizing parsed with
  | nil => simp
  | cons part _ ih =>
    obtain ⟨sameCalls, refused⟩ := ih (parseMessagePart parsed part)
    constructor
    · rw [foldl_cons, sameCalls, toolCalls_parseMessagePart]
    · rw [foldl_cons, refused, parseMessagePart_refused, any_cons, Bool.or_assoc]

theorem toolCalls_parseAgentMessage (items : List AssistantItem) (item : Json) :
    (AssistantMessage.mk (parseAgentMessage items item)).toolCalls =
      (AssistantMessage.mk items).toolCalls := by
  rw [parseAgentMessage]
  simp only
  split
  · split
    · rfl
    · simp
  · rfl

theorem toolCalls_append_toolCall (items : List AssistantItem) (call : ToolCall) :
    (AssistantMessage.mk (items ++ [.toolCall call])).toolCalls =
      (AssistantMessage.mk items).toolCalls ++ [call] := by
  simp [AssistantMessage.toolCalls]

theorem parseResponseOutputItem_adds {lanes after : OutputLanes} {refused : Option String}
    (parsed : parseResponseOutputItem text provider lanes item = .ok (after, refused)) :
    (AssistantMessage.mk after.items).toolCalls =
        (AssistantMessage.mk lanes.items).toolCalls ++ (itemToolCall text provider item).toList ∧
      refused.isSome = isRefusedItem item := by
  obtain ⟨_, typed, classed⟩ := bind_eq_ok.mp parsed
  obtain ⟨itemClass, admitted, added⟩ := bind_eq_ok.mp classed
  have isType := openaiReplayItemType_eq_ok typed
  obtain ⟨isMessage, isFunction, isCustom⟩ := classify_eq_ok (policy_classifies admitted)
  rw [itemToolCall, isRefusedItem, isType]
  cases itemClass with
  | message =>
    obtain rfl := isMessage.mp rfl
    obtain ⟨sameCalls, refuses⟩ :=
      foldl_parseMessagePart ((item.getArray "content").getD []) (lanes.items, none)
    cases added
    constructor
    · simpa using sameCalls
    · simpa using refuses
  | functionCall =>
    obtain rfl := isFunction.mp rfl
    cases added
    simp [toolCalls_append_toolCall]
  | customToolCall =>
    obtain rfl := isCustom.mp rfl
    cases added
    simp [toolCalls_append_toolCall]
  | agentMessage =>
    cases added
    simp_all [toolCalls_parseAgentMessage]
  | hostedOrPassive | clientExecuted =>
    cases added
    simp_all

theorem itemToolCall_key (text : StreamText) (provider : ProviderKind) (item : Json) :
    (itemToolCall text provider item).map ToolCall.key = itemCallKey provider item := by
  rw [itemToolCall, itemCallKey, isToolCallItem]
  split <;> simp_all [parsedToolCall, wireCallKey, ToolCall.key]

theorem recordIdentities_keys {index : Nat} {identities recorded : OutputIdentities}
    {keys : List OutputIdentity} (isRecorded : recordIdentities index identities keys = .ok recorded)
    (distinct : (identities.map Prod.fst).Nodup) :
    recorded.map Prod.fst = keys.reverse ++ identities.map Prod.fst ∧
      (recorded.map Prod.fst).Nodup := by
  induction keys generalizing identities with
  | nil =>
    cases isRecorded
    exact ⟨rfl, distinct⟩
  | cons key _ ih =>
    rw [recordIdentities] at isRecorded
    split at isRecorded
    · cases isRecorded
    · rename_i absent
      have isNew : key ∉ identities.map Prod.fst := by
        rw [List.mem_map]
        rintro ⟨entry, stored, rfl⟩
        have apart := lookup_eq_none_iff.mp absent entry stored
        simp at apart
      have extended : (((key, index) :: identities).map Prod.fst).Nodup :=
        nodup_cons.mpr ⟨isNew, distinct⟩
      obtain ⟨listed, nodup⟩ := ih isRecorded extended
      constructor
      · rw [listed]
        simp
      · exact nodup

def identityKeys (item : Json) : List OutputIdentity :=
  outputIdentities ((item.getStr "type").getD "") item

theorem validateOutputIdentities_nodup {identities : OutputIdentities}
    (valid : validateOutputIdentities identities output = .ok ())
    (distinct : (identities.map Prod.fst).Nodup) :
    (((output.flatMap fun entry => identityKeys entry.2).reverse) ++
      identities.map Prod.fst).Nodup := by
  induction output generalizing identities with
  | nil => simpa using distinct
  | cons entry _ ih =>
    obtain ⟨itemType, typed, recorded⟩ := bind_eq_ok.mp valid
    obtain ⟨_, isRecorded, others⟩ := bind_eq_ok.mp recorded
    obtain ⟨listed, nodup⟩ := recordIdentities_keys isRecorded distinct
    have isKeys : identityKeys entry.2 = outputIdentities itemType entry.2 := by
      rw [identityKeys, openaiReplayItemType_eq_ok typed]
      rfl
    have all := ih others nodup
    rw [listed] at all
    rw [flatMap_cons, reverse_append, append_assoc, isKeys]
    exact all

theorem validateOutputItems_disjoint (valid : validateOutputItems output = .ok ()) :
    output.Pairwise fun first second =>
      List.Disjoint (identityKeys first.2) (identityKeys second.2) := by
  obtain ⟨_, -, identities⟩ := bind_eq_ok.mp valid
  have nodup := validateOutputIdentities_nodup identities nodup_nil
  rw [map_nil, append_nil, nodup_reverse] at nodup
  exact (nodup_flatMap.mp nodup).2

theorem mem_identityKeys {id : String} (isType : item.getStr "type" = some itemType)
    (isId : (item.getStr "call_id").bind nonempty = some id) :
    (itemType, "call_id", id) ∈ identityKeys item := by
  rw [identityKeys, outputIdentities, mem_filterMap, isType]
  refine ⟨"call_id", by simp [stableFields], ?_⟩
  rw [isId]
  rfl

theorem materializeItems_collects {staged : StagedOutput}
    (materialized : materializeItems text provider staged output = .ok final) :
    (AssistantMessage.mk final.lanes.items).toolCalls =
        (AssistantMessage.mk staged.lanes.items).toolCalls
          ++ output.filterMap (fun entry => itemToolCall text provider entry.2) ∧
      (final.stopReason = .refusal ↔
        staged.stopReason = .refusal ∨ ∃ entry ∈ output, isRefusedItem entry.2) := by
  induction output generalizing staged with
  | nil =>
    cases materialized
    simp
  | cons entry rest ih =>
    obtain ⟨⟨lanes, refused⟩, parsed, others⟩ := bind_eq_ok.mp materialized
    obtain ⟨added, refuses⟩ := parseResponseOutputItem_adds parsed
    have collected : (AssistantMessage.mk lanes.items).toolCalls
          ++ rest.filterMap (fun entry => itemToolCall text provider entry.2)
        = (AssistantMessage.mk staged.lanes.items).toolCalls
          ++ (entry :: rest).filterMap (fun entry => itemToolCall text provider entry.2) := by
      rw [added, append_assoc]
      cases call : itemToolCall text provider entry.2 with
      | none | some => simp [call]
    cases refused with
    | some refusal =>
      obtain ⟨calls, refusal⟩ := ih others
      constructor
      · rw [calls]
        exact collected
      · rw [refusal]
        simp [StagedOutput.refusing, ← refuses]
    | none =>
      obtain ⟨calls, refusal⟩ := ih others
      constructor
      · rw [calls]
        exact collected
      · rw [refusal]
        simp [← refuses]

theorem callKeys_materializeItems
    (materialized : materializeItems text provider {} output = .ok final) :
    callKeys final.lanes.items = output.filterMap fun entry => itemCallKey provider entry.2 := by
  rw [callKeys, (materializeItems_collects materialized).1, map_append, map_filterMap]
  simp only [itemToolCall_key]
  rfl

theorem materializeItems_call_id {staged : StagedOutput}
    (materialized : materializeItems text provider staged output = .ok final) {entry : Nat × Json}
    (isItem : entry ∈ output) (isCall : isToolCallItem entry.2) :
    ∃ id, (entry.2.getStr "call_id").bind nonempty = some id := by
  induction output generalizing staged with
  | nil => cases isItem
  | cons _ _ ih =>
    obtain ⟨⟨_, refused⟩, parsed, others⟩ := bind_eq_ok.mp materialized
    obtain rfl | inRest := mem_cons.mp isItem
    · rw [parseResponseOutputItem] at parsed
      obtain ⟨_, typed, classed⟩ := bind_eq_ok.mp parsed
      obtain ⟨_, admitted, -⟩ := bind_eq_ok.mp classed
      refine policy_call_id admitted ?_
      rw [isToolCallItem, openaiReplayItemType_eq_ok typed] at isCall
      simpa using isCall
    · cases refused with
      | some | none => exact ih others inRest

theorem map_control_eq_ok {State : Type} {result : ProviderResult State} {control asked : SseControl}
    {after : State} (ran : result.map (fun state => (state, control)) = .ok (after, asked)) :
    result = .ok after ∧ asked = control := by
  cases result with
  | error => cases ran
  | ok =>
    cases ran
    exact ⟨rfl, rfl⟩

namespace ResponsesStreamState

/-- What one event can do: end the stream, add one done item, or leave the done items alone. -/
inductive Processes (text : StreamText) (state : ResponsesStreamState) :
    SseEvent → ResponsesStreamState × SseControl → Prop where
  | completed {event : Json} {after : ResponsesStreamState}
      (isType : event.getStr "type" = some "response.completed")
      (completes : complete text state event = .ok after) :
      Processes text state (.json event) (after, .stop)
  | done {event : Json} {after : ResponsesStreamState}
      (isType : event.getStr "type" = some "response.output_item.done")
      (records : recordDoneItem state event = .ok after) :
      Processes text state (.json event) (after, .more)
  | other {event : SseEvent} {after : ResponsesStreamState}
      (goesOn : event.hasType "response.completed" = false) (noItem : doneItem event = none)
      (sameItems : after.outputItems = state.outputItems)
      (sameProvider : after.provider = state.provider)
      (sameOutput : after.materialized = state.materialized) :
      Processes text state event (after, .more)

variable {state after : ResponsesStreamState} {event : Json} {text : StreamText}

theorem recordAddedItem_frame (records : recordAddedItem state event = .ok after) :
    after.outputItems = state.outputItems ∧ after.provider = state.provider ∧
      after.materialized = state.materialized := by
  obtain ⟨⟨_, _, _⟩, -, checked⟩ := bind_eq_ok.mp records
  obtain ⟨_, -, added⟩ := bind_eq_ok.mp checked
  split at added
  · cases added
  · split at added
    · cases added
    · cases added
      exact ⟨rfl, rfl, rfl⟩

theorem processSseEvent_cases {event : SseEvent} {control : SseControl}
    (ran : processSseEvent text state event = .ok (after, control)) :
    Processes text state event (after, control) := by
  cases event with
  | malformedJson => cases ran
  | done =>
    cases ran
    exact .other rfl rfl rfl rfl rfl
  | json =>
    rw [processSseEvent, processEvent] at ran
    split at ran
    · rename_i isType
      obtain ⟨records, rfl⟩ := map_control_eq_ok ran
      obtain ⟨sameItems, sameProvider, sameOutput⟩ := recordAddedItem_frame records
      refine .other ?_ ?_ sameItems sameProvider sameOutput
      · simp [SseEvent.hasType, SseEvent.eventType, isType]
      · simp [doneItem, isType]
    · rename_i isType
      obtain ⟨records, rfl⟩ := map_control_eq_ok ran
      exact .done isType records
    · cases ran
    · cases ran
    · rename_i isType
      obtain ⟨completes, rfl⟩ := map_control_eq_ok ran
      exact .completed isType completes
    · cases ran
    · rename_i notAdded notDone notFailed notIncomplete notCompleted notError
      cases ran
      refine .other ?_ ?_ rfl rfl rfl
      · simpa [SseEvent.hasType, SseEvent.eventType] using notCompleted
      · simpa [doneItem] using fun isDone => absurd isDone notDone

theorem endsAt_completed (text : StreamText) :
    EndsAt (processSseEvent text) (SseEvent.hasType "response.completed") where
  ends_of_stop ran := by
    cases processSseEvent_cases ran with
    | completed isType => simp [SseEvent.hasType, SseEvent.eventType, isType]
  goes_on_of_more ran := by
    cases processSseEvent_cases ran with
    | done isType => simp [SseEvent.hasType, SseEvent.eventType, isType]
    | other goesOn => exact goesOn

theorem outputItemEvent_eq_ok {item : Json} {eventType itemType : String} {index : Nat}
    (read : outputItemEvent event eventType = .ok (index, item, itemType)) :
    (event.get "output_index").bind Json.asU64 = some index ∧ event.get "item" = some item := by
  rw [outputItemEvent] at read
  split at read
  · rename_i foundIndex isIndex
    obtain ⟨_, sameIndex, rest⟩ := bind_eq_ok.mp read
    split at rest
    · rename_i foundItem isItem
      obtain ⟨_, sameItem, typed⟩ := bind_eq_ok.mp rest
      obtain ⟨_, -, same⟩ := bind_eq_ok.mp typed
      cases sameIndex
      cases sameItem
      cases same
      exact ⟨isIndex, isItem⟩
    · cases rest
  · cases read

theorem recordDoneItem_inserts (isType : event.getStr "type" = some "response.output_item.done")
    (records : recordDoneItem state event = .ok after) :
    ∃ index item, doneItem (.json event) = some (index, item) ∧
      state.outputItems[index]? = none ∧
      after.outputItems = state.outputItems.insert index item ∧
      after.provider = state.provider ∧ after.materialized = state.materialized := by
  obtain ⟨⟨index, item, _⟩, read, checked⟩ := bind_eq_ok.mp records
  obtain ⟨isIndex, isItem⟩ := outputItemEvent_eq_ok read
  have isDone : doneItem (.json event) = some (index, item) := by
    rw [doneItem, if_pos isType, isIndex, isItem]
    rfl
  have inserted : (if state.outputItems.contains index then
      refuse ("OpenAI response.output_item.done duplicated output_index " ++ toString index)
      else .ok { state with outputItems := state.outputItems.insert index item } :
        ProviderResult ResponsesStreamState) = .ok after := by
    cases earlier : state.addedItems[index]? with
    | none | some =>
      simp only [earlier] at checked
      exact (bind_eq_ok.mp checked).choose_spec.2
  split at inserted
  · cases inserted
  · rename_i free
    cases inserted
    refine ⟨index, item, isDone, ?_, rfl, rfl, rfl⟩
    exact Std.TreeMap.getElem?_eq_none (by simpa using free)

/-- The done items of the state are those of the events absorbed so far. -/
structure Records (provider : ProviderKind) (seen : List SseEvent) (state : ResponsesStreamState) :
    Prop where
  sameProvider : state.provider = provider
  noOutput : state.materialized = none
  items : ∀ index item, state.outputItems[index]? = some item ↔ (index, item) ∈ doneItems seen

theorem Records.start (provider : ProviderKind) : Records provider [] (new provider) where
  sameProvider := rfl
  noOutput := rfl
  items index item := by simp [new, doneItems]

theorem Records.step {provider : ProviderKind} {seen : List SseEvent} {event : SseEvent}
    (records : Records provider seen state)
    (ran : processSseEvent text state event = .ok (after, .more)) :
    Records provider (seen ++ [event]) after := by
  cases processSseEvent_cases ran with
  | done isType recorded =>
    obtain ⟨index, item, isDone, free, inserted, sameProvider, sameOutput⟩ :=
      recordDoneItem_inserts isType recorded
    constructor
    · rw [sameProvider]
      exact records.sameProvider
    · rw [sameOutput]
      exact records.noOutput
    · intro other stored
      rw [inserted, Std.TreeMap.getElem?_insert, doneItems, filterMap_append, mem_append]
      by_cases here : index = other
      · subst here
        have absent : (index, stored) ∉ seen.filterMap doneItem := by
          intro listed
          rw [(records.items index stored).mpr listed] at free
          cases free
        simp [isDone, absent, eq_comm]
      · have apart : compare index other ≠ .eq := by simpa using here
        rw [if_neg apart, records.items other stored]
        simp [isDone, doneItems, Ne.symm here]
  | other _ noItem sameItems sameProvider sameOutput =>
    constructor
    · rw [sameProvider]
      exact records.sameProvider
    · rw [sameOutput]
      exact records.noOutput
    · intro index item
      rw [sameItems, records.items index item, doneItems, doneItems, filterMap_append]
      simp [noItem]

theorem reconcileTerminalItems_getElem {outputItems reconciled result : OutputItems} {index : Nat}
    {items : List Json} (ran : reconcileTerminalItems outputItems reconciled index items = .ok result)
    (fresh : ∀ other, index ≤ other → outputItems[other]? = none → reconciled[other]? = none)
    (other : Nat) (item : Json) :
    result[other]? = some item ↔
      reconciled[other]? = some item ∨
        (outputItems[other]? = none ∧ (item, other) ∈ items.zipIdx index) := by
  induction items generalizing reconciled index with
  | nil =>
    cases ran
    simp
  | cons first rest ih =>
    rw [reconcileTerminalItems] at ran
    rw [zipIdx_cons, mem_cons]
    split at ran
    · rename_i doneItem isDone
      obtain ⟨_, -, continued⟩ := bind_eq_ok.mp ran
      rw [ih continued fun later above => fresh later (by omega)]
      constructor
      · rintro (stored | ⟨free, listed⟩)
        · exact Or.inl stored
        · exact Or.inr ⟨free, Or.inr listed⟩
      · rintro (stored | ⟨free, here | listed⟩)
        · exact Or.inl stored
        · cases here
          rw [isDone] at free
          cases free
        · exact Or.inr ⟨free, listed⟩
    · rename_i free
      have freshAfter : ∀ later, index + 1 ≤ later → outputItems[later]? = none →
          (reconciled.insert index first)[later]? = none := by
        intro later above absent
        have apart : compare index later ≠ .eq := by
          rw [ne_eq, Nat.compare_eq_eq]
          omega
        rw [Std.TreeMap.getElem?_insert, if_neg apart]
        exact fresh later (by omega) absent
      rw [ih ran freshAfter, Std.TreeMap.getElem?_insert]
      by_cases here : index = other
      · subst here
        have absent := fresh index (Nat.le_refl index) free
        have later : (item, index) ∉ rest.zipIdx (index + 1) := by
          intro listed
          have above := le_snd_of_mem_zipIdx listed
          omega
        simp [absent, free, later, eq_comm]
      · have apart : compare index other ≠ .eq := by simpa using here
        rw [if_neg apart]
        simp [Ne.symm here]

theorem completedResponse_eq_ok {response : Json}
    (read : completedResponse text event = .ok response) :
    event.get "response" = some response := by
  rw [completedResponse] at read
  split at read
  · rename_i fields isResponse
    obtain ⟨_, same, checked⟩ := bind_eq_ok.mp read
    cases same
    dsimp only at checked
    split at checked
    · cases checked
    obtain ⟨_, -, statusChecked⟩ := bind_eq_ok.mp checked
    split at statusChecked
    · split at statusChecked
      · cases statusChecked
      · cases statusChecked
        exact isResponse
    · cases statusChecked
      exact isResponse
  · cases read

theorem complete_eq_ok (completes : complete text state event = .ok after) :
    ∃ (output : OutputItems) (materialized : ResponsesMaterializedOutput),
      materializeOutputItems text output state.provider = .ok materialized ∧
      after.materialized = some materialized ∧
      ∀ index item, output[index]? = some item ↔
        state.outputItems[index]? = some item ∨
          (state.outputItems[index]? = none ∧ (item, index) ∈ (listedItems event).zipIdx) := by
  obtain ⟨response, read, reconciled⟩ := bind_eq_ok.mp completes
  obtain ⟨_, -, found⟩ := bind_eq_ok.mp reconciled
  have isResponse := completedResponse_eq_ok read
  split at found
  · rename_i output isOutput
    obtain ⟨items, isItems, rest⟩ := bind_eq_ok.mp found
    obtain ⟨materialized, isMaterialized, same⟩ := bind_eq_ok.mp rest
    cases same
    refine ⟨items, materialized, isMaterialized, rfl, ?_⟩
    rw [reconcileTerminalOutput] at isItems
    split at isItems
    · rename_i listed isArray
      have isListed : listedItems event = listed := by
        rw [listedItems, isResponse]
        show (((response.get "output").bind Json.asArray)).getD [] = listed
        rw [isOutput]
        show output.asArray.getD [] = listed
        rw [isArray]
        rfl
      rw [isListed]
      exact reconcileTerminalItems_getElem isItems fun _ _ free => free
    · cases isItems
  · rename_i noOutput
    obtain ⟨items, isItems, rest⟩ := bind_eq_ok.mp found
    obtain ⟨materialized, isMaterialized, same⟩ := bind_eq_ok.mp rest
    cases same
    cases isItems
    refine ⟨state.outputItems, materialized, isMaterialized, rfl, ?_⟩
    have isListed : listedItems event = [] := by
      rw [listedItems, isResponse]
      show (((response.get "output").bind Json.asArray)).getD [] = []
      rw [noOutput]
      rfl
    simp [isListed]

end ResponsesStreamState

theorem parseResponsesStream_eq_ok {response : ModelResponse}
    (accepted : parseResponsesStream text provider events = .ok response) :
    ∃ (output : OutputItems) (materialized : ResponsesMaterializedOutput),
      materializeOutputItems text output provider = .ok materialized ∧
      (response.assistant.items = materialized.items ∧
        response.providerReplay = materialized.providerReplay ∧
          response.stopReason = materialized.stopReason) ∧
      ∀ index item, output[index]? = some item ↔ DeliveredAt events index item := by
  obtain ⟨_, ran, finished⟩ := bind_eq_ok.mp accepted
  obtain ⟨-, records⟩ | ⟨last, prior, isLast, records, stopped⟩ :=
    (ResponsesStreamState.endsAt_completed text).consume_rule
      (fun records step => records.step step) (ResponsesStreamState.Records.start provider) ran
  · rw [ResponsesStreamState.finish, records.noOutput] at finished
    split at finished
    · rename_i absurdOutput
      cases absurdOutput
    · cases finished
  · cases ResponsesStreamState.processSseEvent_cases stopped with
    | @completed event _ isType completes =>
      obtain ⟨output, materialized, isMaterialized, isOutput, items⟩ :=
        ResponsesStreamState.complete_eq_ok completes
      rw [records.sameProvider] at isMaterialized
      refine ⟨output, materialized, isMaterialized, ?_, ?_⟩
      · rw [ResponsesStreamState.finish, isOutput] at finished
        split at finished
        · rename_i found
          cases found
          cases finished
          exact ⟨rfl, rfl, rfl⟩
        · cases finished
      · intro index item
        have listed : terminalItems events = listedItems event := by
          rw [terminalItems]
          rw [isLast]
        have free : prior.outputItems[index]? = none ↔
            index ∉ (doneItems (eventsBefore "response.completed" events)).map Prod.fst := by
          rw [eq_none_iff_forall_ne_some, List.mem_map]
          constructor
          · rintro absent ⟨⟨_, stored⟩, isDone, rfl⟩
            exact absent stored ((records.items _ stored).mpr isDone)
          · intro absent stored isStored
            exact absent ⟨(index, stored), (records.items index stored).mp isStored, rfl⟩
        rw [items, records.items, free, listed.symm, mem_zipIdx_iff_getElem?]
        rfl

theorem mem_values_iff_delivered {output : OutputItems}
    (delivered : ∀ index item, output[index]? = some item ↔ DeliveredAt events index item)
    (item : Json) : item ∈ output.toList.map Prod.snd ↔ item ∈ deliveredItems events := by
  rw [mem_deliveredItems_iff, List.mem_map]
  constructor
  · rintro ⟨⟨index, _⟩, listed, rfl⟩
    exact ⟨index, (delivered index _).mp (Std.TreeMap.mem_toList_iff_getElem?_eq_some.mp listed)⟩
  · rintro ⟨index, isDelivered⟩
    have stored := (delivered index item).mpr isDelivered
    exact ⟨(index, item), Std.TreeMap.mem_toList_iff_getElem?_eq_some.mpr stored, rfl⟩

/-- No call of one wire type names itself like a call of the other. -/
def CallTypesApart (provider : ProviderKind) (items : List Json) : Prop :=
  ∀ function ∈ items, ∀ custom ∈ items,
    function.getStr "type" = some "function_call" →
    custom.getStr "type" = some "custom_tool_call" →
    wireCallKey provider function ≠ wireCallKey provider custom

theorem isToolCallItem_iff :
    isToolCallItem item ↔
      item.getStr "type" = some "function_call" ∨ item.getStr "type" = some "custom_tool_call" := by
  simp [isToolCallItem]

theorem itemCallKey_eq_some {key : ToolCallId × String} :
    itemCallKey provider item = some key ↔
      isToolCallItem item ∧ wireCallKey provider item = key := by
  rw [itemCallKey]
  split <;> simp_all

theorem not_disjoint_of_same_key {first second : Json} {type id : String}
    (isFirst : first.getStr "type" = some type) (isSecond : second.getStr "type" = some type)
    (isId : (first.getStr "call_id").bind nonempty = some id)
    (otherId : ∃ id, (second.getStr "call_id").bind nonempty = some id)
    (same : wireCallKey provider first = wireCallKey provider second) :
    ¬ List.Disjoint (identityKeys first) (identityKeys second) := by
  intro apart
  obtain ⟨other, isOther⟩ := otherId
  have validated : ∀ {item : Json} {id : String}, (item.getStr "call_id").bind nonempty = some id →
      validatedString item "call_id" = id := by
    intro item id found
    obtain ⟨_, isStored, kept⟩ := bind_eq_some_iff.mp found
    rw [nonempty] at kept
    split at kept
    · cases kept
    · cases kept
      rw [validatedString, isStored]
      rfl
  have sameId : id = other := by
    rw [← validated isId, ← validated isOther]
    exact congrArg Prod.fst same
  subst sameId
  exact apart (mem_identityKeys isFirst isId) (mem_identityKeys isSecond isOther)

theorem filterMap_itemCallKey_nodup_iff (provider : ProviderKind)
    (disjoint : output.Pairwise fun first second =>
      List.Disjoint (identityKeys first.2) (identityKeys second.2))
    (ids : ∀ entry ∈ output, isToolCallItem entry.2 →
      ∃ id, (entry.2.getStr "call_id").bind nonempty = some id) :
    (output.filterMap fun entry => itemCallKey provider entry.2).Nodup ↔
      CallTypesApart provider (output.map Prod.snd) := by
  rw [List.Nodup, pairwise_filterMap]
  constructor
  · intro nodup function isFunction custom isCustom functionType customType same
    obtain ⟨first, inFirst, rfl⟩ := mem_map.mp isFunction
    obtain ⟨second, inSecond, rfl⟩ := mem_map.mp isCustom
    have differ : first ≠ second := by
      rintro rfl
      rw [functionType] at customType
      simp at customType
    have symmetric : Std.Symm fun one other : Nat × Json =>
        ∀ key, itemCallKey provider one.2 = some key →
          ∀ key', itemCallKey provider other.2 = some key' → key ≠ key' := by
      constructor
      intro one other apart key isKey key' isKey' equal
      exact apart key' isKey' key isKey equal.symm
    have apart := nodup.forall inFirst inSecond differ
    refine apart _ (itemCallKey_eq_some.mpr ⟨?_, rfl⟩) _ (itemCallKey_eq_some.mpr ⟨?_, rfl⟩) same
    · exact isToolCallItem_iff.mpr (Or.inl functionType)
    · exact isToolCallItem_iff.mpr (Or.inr customType)
  · intro apart
    refine disjoint.imp_of_mem ?_
    intro first second inFirst inSecond noShared key isKey key' isKey' equal
    obtain ⟨firstCall, isFirst⟩ := itemCallKey_eq_some.mp isKey
    obtain ⟨secondCall, isSecond⟩ := itemCallKey_eq_some.mp isKey'
    have same : wireCallKey provider first.2 = wireCallKey provider second.2 := by
      rw [isFirst, isSecond, equal]
    have firstItem : first.2 ∈ output.map Prod.snd := mem_map_of_mem inFirst
    have secondItem : second.2 ∈ output.map Prod.snd := mem_map_of_mem inSecond
    obtain ⟨id, isId⟩ := ids first inFirst firstCall
    have otherId := ids second inSecond secondCall
    obtain firstFunction | firstCustom := isToolCallItem_iff.mp firstCall
    · obtain secondFunction | secondCustom := isToolCallItem_iff.mp secondCall
      · exact not_disjoint_of_same_key firstFunction secondFunction isId otherId same noShared
      · exact apart _ firstItem _ secondItem firstFunction secondCustom same
    · obtain secondFunction | secondCustom := isToolCallItem_iff.mp secondCall
      · exact apart _ secondItem _ firstItem secondFunction firstCustom same.symm
      · exact not_disjoint_of_same_key firstCustom secondCustom isId otherId same noShared

theorem responsesCalls_nodup_iff {response : ModelResponse}
    (accepted : parseResponsesStream text provider events = .ok response) :
    (callKeys response.assistant.items).Nodup ↔
      (deliveredItems events).any isRefusedItem ∨
        CallTypesApart provider (deliveredItems events) := by
  obtain ⟨output, materialized, isMaterialized, ⟨isOutput, -, -⟩, delivered⟩ :=
    parseResponsesStream_eq_ok accepted
  have sameItems := mem_values_iff_delivered delivered
  rw [isOutput]
  obtain ⟨_, valid, staged⟩ := bind_eq_ok.mp isMaterialized
  obtain ⟨final, collected, same⟩ := bind_eq_ok.mp staged
  cases same
  have refusal := (materializeItems_collects collected).2
  have refuses : final.stopReason = .refusal ↔ (deliveredItems events).any isRefusedItem := by
    rw [refusal, List.any_eq_true]
    constructor
    · rintro (never | ⟨entry, listed, refused⟩)
      · cases never
      · exact ⟨entry.2, (sameItems entry.2).mp (mem_map_of_mem listed), refused⟩
    · rintro ⟨item, isDelivered, refused⟩
      obtain ⟨entry, listed, rfl⟩ := mem_map.mp ((sameItems item).mpr isDelivered)
      exact Or.inr ⟨entry, listed, refused⟩
  rw [← refuses]
  by_cases refused : final.stopReason = .refusal
  · simp [refused]
  · have calls := callKeys_materializeItems collected
    have apart := filterMap_itemCallKey_nodup_iff provider (validateOutputItems_disjoint valid)
      fun entry listed isCall => materializeItems_call_id collected listed isCall
    have sameApart : CallTypesApart provider (output.toList.map Prod.snd) ↔
        CallTypesApart provider (deliveredItems events) := by
      simp only [CallTypesApart, sameItems]
    simp only [refused, if_false, false_or, calls]
    rw [← sameApart, ← apart]

end PiRelay.AgentProvider
