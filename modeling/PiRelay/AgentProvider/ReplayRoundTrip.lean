import PiRelay.AgentProvider.DistinctCalls

/-! An accepted OpenAI response goes out again as it came in: the replay admits what the
parser admitted, item by item and in the order of the indices. A refusal keeps nothing. -/
namespace PiRelay.AgentProvider

open AgentVocab Session List
open Library (Json bind_eq_ok forM_eq_ok)

theorem validateOutputIndices_keys {expected : Nat} {output : List (Nat × Json)}
    (valid : validateOutputIndices expected output = .ok ()) :
    output.map Prod.fst = List.range' expected output.length := by
  induction output generalizing expected with
  | nil => rfl
  | cons entry _ ih =>
    rw [validateOutputIndices] at valid
    split at valid
    · cases valid
    · rename_i here
      have isIndex : entry.1 = expected := by simpa using here
      rw [map_cons, length_cons, range'_succ, ih valid, isIndex]

theorem getElem?_values {output : OutputItems}
    (valid : validateOutputIndices 0 output.toList = .ok ()) (index : Nat) :
    (output.toList.map Prod.snd)[index]? = output[index]? := by
  have keys := validateOutputIndices_keys valid
  have here : ∀ {position : Nat} {entry : Nat × Json}, output.toList[position]? = some entry →
      entry.1 = position := by
    intro position entry found
    obtain ⟨below, -⟩ := List.getElem?_eq_some_iff.mp found
    have atKeys : (output.toList.map Prod.fst)[position]? = some entry.1 := by
      rw [getElem?_map, found]
      rfl
    rw [keys, getElem?_range' below] at atKeys
    have same := Option.some.inj atKeys
    omega
  ext item
  rw [getElem?_map, ← Std.TreeMap.mem_toList_iff_getElem?_eq_some, mem_iff_getElem?]
  constructor
  · intro found
    obtain ⟨entry, isEntry, rfl⟩ := Option.map_eq_some_iff.mp found
    refine ⟨index, ?_⟩
    rw [isEntry, ← here isEntry]
  · rintro ⟨position, isEntry⟩
    obtain rfl := here isEntry
    rw [isEntry]
    rfl

theorem openaiReplayItemType_ok_iff {item : Json} {context other itemType : String} :
    openaiReplayItemType item context = .ok itemType ↔
      openaiReplayItemType item other = .ok itemType := by
  rw [openaiReplayItemType, openaiReplayItemType]
  split
  · split
    · rfl
    · simp [refuse]
  · simp [refuse]

variable {text : StreamText} {provider : ProviderKind} {items : List Json} {events : List SseEvent}
    {response : ModelResponse}

theorem parseResponseOutputItem_replays {lanes after : OutputLanes} {item : Json}
    {refused : Option String}
    (parsed : parseResponseOutputItem text provider lanes item = .ok (after, refused)) :
    (∃ display, after.providerReplay =
        lanes.providerReplay ++ [newWithDisplay text provider item display]) ∧
      validateReplayItem item = .ok () := by
  obtain ⟨itemType, typed, classed⟩ := bind_eq_ok.mp parsed
  obtain ⟨itemClass, admitted, added⟩ := bind_eq_ok.mp classed
  constructor
  · refine ⟨openaiProviderReplayDisplay text item, ?_⟩
    cases itemClass <;>
      · cases added
        rfl
  · rw [validateReplayItem, openaiReplayItemType_ok_iff.mp typed]
    show (do let _ ← validateOpenaiOrdinaryItemPolicy itemType item; .ok ()) = _
    rw [admitted]
    rfl

theorem materializeItems_replays {staged final : StagedOutput} {output : List (Nat × Json)}
    (materialized : materializeItems text provider staged output = .ok final) :
    final.lanes.providerReplay.map (fun record => (record.provider, record.rawJson)) =
        staged.lanes.providerReplay.map (fun record => (record.provider, record.rawJson))
          ++ output.map (fun entry => (provider, text.toText entry.2)) ∧
      ∀ entry ∈ output, validateReplayItem entry.2 = .ok () := by
  induction output generalizing staged with
  | nil =>
    cases materialized
    simp
  | cons _ rest ih =>
    obtain ⟨⟨lanes, refused⟩, parsed, others⟩ := bind_eq_ok.mp materialized
    obtain ⟨⟨_, added⟩, admitted⟩ := parseResponseOutputItem_replays parsed
    have goesOn : ∃ next : StagedOutput, next.lanes = lanes ∧
        materializeItems text provider next rest = .ok final := by
      cases refused with
      | some | none => exact ⟨_, rfl, others⟩
    obtain ⟨next, rfl, ran⟩ := goesOn
    obtain ⟨records, admitsRest⟩ := ih ran
    constructor
    · rw [records, added]
      simp [newWithDisplay]
    · intro other listed
      obtain rfl | inRest := mem_cons.mp listed
      · exact admitted
      · exact admitsRest other inRest

theorem openaiReplayItems_eq_ok {text : ProviderText} {entry : ModelContextEntry}
    (read : providerReplayValuesFor text .openAi entry = .ok items)
    (admitted : ∀ item ∈ items, validateReplayItem item = .ok ()) :
    openaiReplayItems text entry false = .ok items := by
  rw [openaiReplayItems, read]
  show (do items.forM validateReplayItem; .ok items) = _
  rw [forM_eq_ok.mpr admitted]
  rfl

/-- The items that a response was accepted with, in the order of their indices, and what the
response keeps of them. -/
structure AcceptedItems (text : StreamText) (provider : ProviderKind) (events : List SseEvent)
    (response : ModelResponse) (items : List Json) : Prop where
  delivered : ∀ index item, items[index]? = some item ↔ DeliveredAt events index item
  admitted : ∀ item ∈ items, validateReplayItem item = .ok ()
  refused_iff : response.stopReason = .refusal ↔ items.any isRefusedItem = true
  nothing : response.stopReason = .refusal ∨ items = [] →
    response.assistant.items = [] ∧ response.providerReplay = []
  calls : response.stopReason ≠ .refusal →
    response.assistant.toolCalls = items.filterMap (itemToolCall text provider)
  records : response.stopReason ≠ .refusal →
    response.providerReplay.map (fun record => (record.provider, record.rawJson)) =
      items.map fun item => (provider, text.toText item)

theorem parseResponsesStream_items
    (accepted : parseResponsesStream text provider events = .ok response) :
    ∃ items, AcceptedItems text provider events response items := by
  obtain ⟨output, materialized, isMaterialized, ⟨sameItems, sameReplay, sameReason⟩, delivered⟩ :=
    parseResponsesStream_eq_ok accepted
  obtain ⟨_, valid, staged⟩ := bind_eq_ok.mp isMaterialized
  obtain ⟨final, collected, same⟩ := bind_eq_ok.mp staged
  cases same
  obtain ⟨_, indices, -⟩ := bind_eq_ok.mp valid
  obtain ⟨calls, refusal⟩ := materializeItems_collects collected
  obtain ⟨records, admitted⟩ := materializeItems_replays collected
  refine ⟨output.toList.map Prod.snd, ?_⟩
  constructor
  case delivered =>
    intro index item
    rw [getElem?_values indices, delivered]
  case admitted =>
    intro item listed
    obtain ⟨entry, isEntry, rfl⟩ := mem_map.mp listed
    exact admitted entry isEntry
  case refused_iff =>
    rw [sameReason, refusal]
    simp
  case nothing =>
    rw [sameItems, sameReplay, sameReason]
    rintro (refused | empty)
    · have isRefused : final.stopReason = .refusal := refused
      rw [if_pos isRefused]
      exact ⟨rfl, rfl⟩
    · rw [map_eq_nil_iff] at empty
      rw [empty] at collected
      cases collected
      exact ⟨rfl, rfl⟩
  case calls =>
    rw [sameReason]
    intro kept
    have isMessage : response.assistant = AssistantMessage.mk final.lanes.items := by
      rw [← AssistantMessage.mk.injEq] at sameItems
      rw [if_neg kept] at sameItems
      exact sameItems
    rw [isMessage, calls, filterMap_map]
    rfl
  case records =>
    rw [sameReason]
    intro kept
    rw [sameReplay, if_neg kept, records, List.map_map]
    rfl

theorem itemToolCall_isSome (text : StreamText) (provider : ProviderKind) (item : Json) :
    (itemToolCall text provider item).isSome = isToolCallItem item := by
  rw [itemToolCall, isToolCallItem]
  split <;> simp_all

theorem map_itemToolCall_filter (text : StreamText) (provider : ProviderKind) (items : List Json) :
    (items.filter isToolCallItem).map (itemToolCall text provider) =
      (items.filterMap (itemToolCall text provider)).map some := by
  induction items with
  | nil => rfl
  | cons item _ ih =>
    have isCall := itemToolCall_isSome text provider item
    cases call : itemToolCall text provider item with
    | none | some => simp [call, ← isCall, ih]

theorem entryResponseItems_assistant (text : ProviderText) (prompt : PromptSections)
    (message : AssistantMessage) (replay : List ProviderReplayItem) :
    entryResponseItems text prompt { item := .assistantMessage message, providerReplay := replay } =
      (openaiReplayItems text
          { item := .assistantMessage message, providerReplay := replay } false).map
        fun values => if values.isEmpty then assistantItems text message else values := by
  rw [entryResponseItems]
  cases openaiReplayItems text
      { item := .assistantMessage message, providerReplay := replay } false with
  | error error => rfl
  | ok values =>
    show (if values.isEmpty then _ else _) = Except.ok (if values.isEmpty then _ else _)
    split <;> rfl

section

variable (prompt : PromptSections) (accepted : AcceptedItems text .openAi events response items)
  (kept : response.stopReason ≠ .refusal)
  (reads : ∀ item ∈ deliveredItems events, text.fromText (text.toText item) = some item)
include accepted kept reads

theorem AcceptedItems.providerReplayValues (item : TranscriptItem) :
    providerReplayValuesFor text.toProviderText .openAi
      { item := item, providerReplay := response.providerReplay } = .ok items := by
  refine providerReplayValuesFor_written _ (accepted.records kept) ?_
  intro item listed
  obtain ⟨index, isItem⟩ := mem_iff_getElem?.mp listed
  exact reads item (mem_deliveredItems_iff.mpr ⟨index, (accepted.delivered _ _).mp isItem⟩)

theorem AcceptedItems.entryResponseItems :
    entryResponseItems text.toProviderText prompt
        { item := .assistantMessage response.assistant,
          providerReplay := response.providerReplay } = .ok items := by
  have replay := openaiReplayItems_eq_ok
    (accepted.providerReplayValues kept reads (.assistantMessage response.assistant))
    accepted.admitted
  rw [entryResponseItems_assistant, replay, Except.map]
  split
  · rename_i noItems
    have empty : items = [] := by simpa using noItems
    obtain ⟨noText, -⟩ := accepted.nothing (Or.inr empty)
    rw [empty, assistantItems, AssistantMessage.toolCalls, noText]
    rfl
  · rfl

end

/-- Rendered again, an accepted response is its items in the order of their indices; the
calls of its message stand for its call items, one for one. If a part of a message refuses,
it keeps neither items nor a replay. -/
theorem accepted_response_replays (text : StreamText) (prompt : PromptSections)
    {events : List SseEvent} {response : ModelResponse}
    (accepted : parseResponsesStream text .openAi events = .ok response)
    (reads : ∀ item ∈ deliveredItems events, text.fromText (text.toText item) = some item) :
    ∃ items : List Json,
      (∀ index item, items[index]? = some item ↔ DeliveredAt events index item) ∧
      (response.stopReason ≠ .refusal →
        transcriptToResponseItems text.toProviderText prompt
            [{ item := .assistantMessage response.assistant,
               providerReplay := response.providerReplay }] = .ok items ∧
          (items.filter isToolCallItem).map (itemToolCall text .openAi) =
            response.assistant.toolCalls.map some) ∧
      (items.any isRefusedItem →
        response.assistant.items = [] ∧ response.providerReplay = []) := by
  obtain ⟨items, isAccepted⟩ := parseResponsesStream_items accepted
  refine ⟨items, isAccepted.delivered, ?_, ?_⟩
  · intro kept
    constructor
    · rw [transcriptToResponseItems, isAccepted.entryResponseItems prompt kept reads]
      show Except.ok (items ++ []) = _
      rw [append_nil]
    · rw [isAccepted.calls kept]
      exact map_itemToolCall_filter text .openAi items
  · intro refused
    exact isAccepted.nothing (Or.inl (isAccepted.refused_iff.mpr refused))

/-- Items that arrive out of order, the last of them only with the completed response. -/
def sampleReplayItems : List Json :=
  [sampleFunctionCall "call_1" "Bash",
    messageItem "assistant" [.object [("type", .string "output_text"), ("text", .string "done")]],
    sampleCustomCall "call_2" "apply_patch"]

/-- The texts of some items are read back. -/
def sampleTextOf (items : List Json) : StreamText :=
  { sampleStreamText with
    fromText := fun encoded => items.find? fun item => plainText item == encoded }

def sampleReplayEvents : List SseEvent :=
  (sampleReplayItems.zipIdx.take 2).reverse.map
      (fun (item, index) =>
        sampleEvent "response.output_item.done" (sampleIndexed index "item" item))
    ++ [sampleEvent "response.completed"
      [("response", .object [("id", .string "resp_1"), ("output", .array sampleReplayItems)])]]

theorem sampleReplayItems_read :
    ∀ item ∈ deliveredItems sampleReplayEvents,
      (sampleTextOf sampleReplayItems).fromText ((sampleTextOf sampleReplayItems).toText item) =
        some item := by
  have delivered : deliveredItems sampleReplayEvents =
      (sampleReplayItems.take 2).reverse ++ sampleReplayItems.drop 2 := by rfl
  rw [delivered]
  intro item listed
  simp only [sampleReplayItems, List.take, List.drop, List.reverse, List.reverseAux,
    cons_append, nil_append, mem_cons, not_mem_nil, or_false] at listed
  obtain rfl | rfl | rfl := listed <;> rfl

theorem accepted_response_replays_sample :
    ∃ response,
      parseResponsesStream (sampleTextOf sampleReplayItems) .openAi sampleReplayEvents =
        .ok response ∧
      ∃ items : List Json,
        (∀ index item, items[index]? = some item ↔ DeliveredAt sampleReplayEvents index item) ∧
        (response.stopReason ≠ .refusal →
          transcriptToResponseItems (sampleTextOf sampleReplayItems).toProviderText
              { stablePrefix := none, dynamicContext := none }
              [{ item := .assistantMessage response.assistant,
                 providerReplay := response.providerReplay }] = .ok items ∧
            (items.filter isToolCallItem).map
                (itemToolCall (sampleTextOf sampleReplayItems) .openAi) =
              response.assistant.toolCalls.map some) ∧
        (items.any isRefusedItem →
          response.assistant.items = [] ∧ response.providerReplay = []) := by
  exact ⟨_, rfl, accepted_response_replays (sampleTextOf sampleReplayItems) _ rfl
    sampleReplayItems_read⟩

end PiRelay.AgentProvider
