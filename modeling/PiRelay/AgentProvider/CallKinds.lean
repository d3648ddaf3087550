import Mathlib.Data.List.Sublists
import PiRelay.AgentProvider.ReplayRoundTrip

/-! The outputs that answer the calls of a transcript. A call goes out as the item it was
received as; the type of its output is chosen by the name of its tool. The two agree where
the name tells what the item was. -/
namespace PiRelay.AgentProvider

open AgentVocab Session List Option
open Library (Json bind_eq_ok)

def answeringType (callItem : Json) : Option String :=
  match callItem.getStr "type" with
  | some "function_call" => some "function_call_output"
  | some "custom_tool_call" => some "custom_tool_call_output"
  | _ => none

def AnswersItem (callItem output : Json) : Prop :=
  output.getStr "call_id" = callItem.getStr "call_id" ∧
    output.getStr "type" = answeringType callItem

/-- An assistant message, and after it a result that names one of its calls. -/
structure AnsweredMessage (transcript : List ModelContextEntry) (entry : ModelContextEntry)
    (message : AssistantMessage) (answer : ModelContextEntry) (result : ToolResultMessage) :
    Prop where
  inOrder : [entry, answer].Sublist transcript
  isMessage : entry.item = .assistantMessage message
  isResult : answer.item = .toolResult result

/-- The item of each answered call is followed by an output that answers it. -/
def CallKindsAgree (text : ProviderText) (prompt : PromptSections)
    (transcript : List ModelContextEntry) (items : List Json) : Prop :=
  ∀ entry message answer result, AnsweredMessage transcript entry message answer result →
    ∀ (position : Nat) call, message.toolCalls[position]? = some call → result.key = call.key →
      ∃ sent callItem, entryResponseItems text prompt entry = .ok sent ∧
        (sent.filter isToolCallItem)[position]? = some callItem ∧
        [callItem, responseToolResultItem result].Sublist items ∧
        AnswersItem callItem (responseToolResultItem result)

/-- Each answered call of a replay is a custom call exactly when its name is one of `Edit`. -/
def ReplayedKindsNamed (text : ProviderText) (transcript : List ModelContextEntry) : Prop :=
  ∀ entry message answer result, AnsweredMessage transcript entry message answer result →
    ∀ replay, providerReplayValuesFor text .openAi entry = .ok replay →
      ∀ item ∈ replay, isToolCallItem item = true → wireCallKey .openAi item = result.key →
        (item.getStr "type" = some "custom_tool_call" ↔
          canonicalToolNameForProvider .openAi (validatedString item "name") = "Edit")

/-- An assistant message has no OpenAI replay, or is an accepted response with its own. -/
def HasAcceptedReplay (text : StreamText) (entry : ModelContextEntry) (message : AssistantMessage) :
    Prop :=
  entry.providerReplay.filter (·.provider == .openAi) = [] ∨
    ∃ events response, parseResponsesStream text .openAi events = .ok response ∧
      (∀ item ∈ deliveredItems events, text.fromText (text.toText item) = some item) ∧
      message = response.assistant ∧ entry.providerReplay = response.providerReplay

variable {prompt : PromptSections} {entry : ModelContextEntry} {items : List Json}
    {message : AssistantMessage} {result : ToolResultMessage} {item : Json} {text : StreamText}

theorem transcriptToResponseItems_cons {text : ProviderText} {rest : List ModelContextEntry} :
    transcriptToResponseItems text prompt (entry :: rest) = .ok items ↔
      ∃ sent later, entryResponseItems text prompt entry = .ok sent ∧
        transcriptToResponseItems text prompt rest = .ok later ∧ sent ++ later = items := by
  rw [transcriptToResponseItems, bind_eq_ok]
  constructor
  · rintro ⟨sent, isSent, continued⟩
    obtain ⟨later, isLater, same⟩ := bind_eq_ok.mp continued
    exact ⟨sent, later, isSent, isLater, Except.ok.inj same⟩
  · rintro ⟨sent, later, isSent, isLater, rfl⟩
    exact ⟨sent, isSent, bind_eq_ok.mpr ⟨later, isLater, rfl⟩⟩

theorem transcriptToResponseItems_sublist {text : ProviderText}
    {entries transcript : List ModelContextEntry} (sub : entries.Sublist transcript)
    (rendered : transcriptToResponseItems text prompt transcript = .ok items) :
    ∃ part, transcriptToResponseItems text prompt entries = .ok part ∧ part.Sublist items := by
  induction sub generalizing items with
  | slnil => exact ⟨items, rendered, List.Sublist.refl items⟩
  | cons _ _ ih =>
    obtain ⟨sent, later, -, isLater, rfl⟩ := transcriptToResponseItems_cons.mp rendered
    obtain ⟨part, isPart, inLater⟩ := ih isLater
    exact ⟨part, isPart, inLater.trans (sublist_append_right sent later)⟩
  | cons_cons _ _ ih =>
    obtain ⟨sent, later, isSent, isLater, rfl⟩ := transcriptToResponseItems_cons.mp rendered
    obtain ⟨part, isPart, inLater⟩ := ih isLater
    refine ⟨sent ++ part, ?_, inLater.append_left sent⟩
    exact transcriptToResponseItems_cons.mpr ⟨sent, part, isSent, isPart, rfl⟩

theorem AnsweredMessage.rendered {text : ProviderText} {transcript : List ModelContextEntry}
    {answer : ModelContextEntry} (answered : AnsweredMessage transcript entry message answer result)
    (rendered : transcriptToResponseItems text prompt transcript = .ok items) :
    ∃ sent, entryResponseItems text prompt entry = .ok sent ∧
      ∀ item ∈ sent, [item, responseToolResultItem result].Sublist items := by
  obtain ⟨_, isPart, inItems⟩ := transcriptToResponseItems_sublist answered.inOrder rendered
  obtain ⟨sent, later, isSent, isLater, rfl⟩ := transcriptToResponseItems_cons.mp isPart
  refine ⟨sent, isSent, ?_⟩
  have isOutput : later = [responseToolResultItem result] := by
    rw [transcriptToResponseItems, entryResponseItems, answered.isResult] at isLater
    exact (Except.ok.inj isLater).symm
  intro item listed
  have first : [item].Sublist sent := singleton_sublist.mpr listed
  rw [isOutput] at inItems
  exact (first.append (List.Sublist.refl _)).trans inItems

theorem isToolCallItem_responseToolCallItem (text : ProviderText) (call : ToolCall) :
    isToolCallItem (responseToolCallItem text call) := by
  rw [responseToolCallItem]
  split <;> rfl

theorem filter_assistantItems (text : ProviderText) (message : AssistantMessage) :
    (assistantItems text message).filter isToolCallItem =
      message.toolCalls.map (responseToolCallItem text) := by
  have noText : ∀ said : List Json, [messageItem "assistant" said].filter isToolCallItem = [] :=
    fun _ => rfl
  have calls : (message.toolCalls.map (responseToolCallItem text)).filter isToolCallItem =
      message.toolCalls.map (responseToolCallItem text) := by
    rw [filter_eq_self]
    intro item listed
    obtain ⟨call, -, rfl⟩ := mem_map.mp listed
    exact isToolCallItem_responseToolCallItem text call
  rw [assistantItems, filter_append, calls]
  split
  · rfl
  · rw [noText]
    rfl

theorem answersItem_rebuilt (text : ProviderText) {call : ToolCall} (same : result.key = call.key) :
    AnswersItem (responseToolCallItem text call) (responseToolResultItem result) := by
  have sameId : result.toolCallId = call.id := congrArg Prod.fst same
  have sameName : result.toolName = call.toolName := congrArg Prod.snd same
  rw [responseToolCallItem, responseToolResultItem, sameId, sameName]
  by_cases isEdit : call.toolName = "Edit"
  · rw [if_pos isEdit, if_pos isEdit]
    exact ⟨rfl, rfl⟩
  · rw [if_neg isEdit, if_neg isEdit]
    exact ⟨rfl, rfl⟩

theorem validatedString_of_nonempty {field value : String}
    (required : (item.getStr field).bind nonempty = some value) :
    item.getStr field = some (validatedString item field) := by
  obtain ⟨_, isStored, -⟩ := bind_eq_some_iff.mp required
  rw [validatedString, isStored]
  rfl

theorem call_id_of_validReplayItem (valid : validateReplayItem item = .ok ())
    (isCall : isToolCallItem item) :
    item.getStr "call_id" = some (validatedString item "call_id") := by
  obtain ⟨_, typed, checked⟩ := bind_eq_ok.mp valid
  obtain ⟨_, admitted, -⟩ := bind_eq_ok.mp checked
  rw [isToolCallItem, openaiReplayItemType_eq_ok typed] at isCall
  obtain ⟨_, required⟩ := policy_call_id admitted (by simpa using isCall)
  exact validatedString_of_nonempty required

theorem answersItem_replayed_iff (valid : validateReplayItem item = .ok ())
    (isCall : isToolCallItem item) (same : wireCallKey .openAi item = result.key) :
    AnswersItem item (responseToolResultItem result) ↔
      (item.getStr "type" = some "custom_tool_call" ↔
        canonicalToolNameForProvider .openAi (validatedString item "name") = "Edit") := by
  have sameId : validatedString item "call_id" = result.toolCallId := congrArg Prod.fst same
  have sameName : canonicalToolNameForProvider .openAi (validatedString item "name") =
      result.toolName := congrArg Prod.snd same
  have answersId : (responseToolResultItem result).getStr "call_id" = item.getStr "call_id" := by
    rw [call_id_of_validReplayItem valid isCall, sameId]
    rfl
  have outputType : (responseToolResultItem result).getStr "type" =
      some (if result.toolName = "Edit" then "custom_tool_call_output"
        else "function_call_output") := rfl
  rw [AnswersItem, outputType, answeringType, sameName]
  obtain isFunction | isCustom := isToolCallItem_iff.mp isCall
  · by_cases isEdit : result.toolName = "Edit" <;> simp [answersId, isFunction, isEdit]
  · by_cases isEdit : result.toolName = "Edit" <;> simp [answersId, isCustom, isEdit]

/-- What a message goes out as: its own rendering, or a replay whose call items are its calls. -/
inductive SendsMessage (text : StreamText) (prompt : PromptSections) (entry : ModelContextEntry)
    (message : AssistantMessage) : Prop where
  | rebuilt (noReplay : providerReplayValuesFor text.toProviderText .openAi entry = .ok [])
      (sends : entryResponseItems text.toProviderText prompt entry =
        .ok (assistantItems text.toProviderText message))
  | replayed (replay : List Json)
      (isReplay : providerReplayValuesFor text.toProviderText .openAi entry = .ok replay)
      (sends : entryResponseItems text.toProviderText prompt entry = .ok replay)
      (valid : ∀ item ∈ replay, validateReplayItem item = .ok ())
      (calls : (replay.filter isToolCallItem).map (itemToolCall text .openAi) =
        message.toolCalls.map some)

theorem sendsMessage_of_noReplay (prompt : PromptSections) {records : List ProviderReplayItem}
    (absent : records.filter (·.provider == .openAi) = []) :
    SendsMessage text prompt { item := .assistantMessage message, providerReplay := records }
      message := by
  have noReplay : providerReplayValuesFor text.toProviderText .openAi
      { item := .assistantMessage message, providerReplay := records } = .ok [] := by
    rw [providerReplayValuesFor, absent]
    rfl
  refine .rebuilt noReplay ?_
  rw [entryResponseItems_assistant, openaiReplayItems_eq_ok noReplay (by simp)]
  rfl

/-- An accepted replay is sent in place of its message. -/
theorem HasAcceptedReplay.sends (prompt : PromptSections)
    (isMessage : entry.item = .assistantMessage message)
    (hasReplay : HasAcceptedReplay text entry message) :
    SendsMessage text prompt entry message := by
  obtain ⟨item, records⟩ := entry
  obtain rfl : item = .assistantMessage message := isMessage
  obtain noReplay | ⟨_, response, accepted, reads, rfl, sameReplay⟩ := hasReplay
  · exact sendsMessage_of_noReplay prompt noReplay
  · obtain rfl : records = response.providerReplay := sameReplay
    obtain ⟨items, isAccepted⟩ := parseResponsesStream_items accepted
    by_cases refused : response.stopReason = .refusal
    · obtain ⟨-, noRecords⟩ := isAccepted.nothing (Or.inl refused)
      refine sendsMessage_of_noReplay prompt ?_
      rw [noRecords]
      rfl
    · refine .replayed items (isAccepted.providerReplayValues refused reads _)
        (isAccepted.entryResponseItems prompt refused reads) isAccepted.admitted ?_
      rw [isAccepted.calls refused]
      exact map_itemToolCall_filter text .openAi items

theorem itemToolCall_of_position {replay : List Json}
    (calls : (replay.filter isToolCallItem).map (itemToolCall text .openAi) =
      message.toolCalls.map some) (position : Nat) :
    ((replay.filter isToolCallItem)[position]?).map (itemToolCall text .openAi) =
      (message.toolCalls[position]?).map some := by
  have atPosition := congrArg (·[position]?) calls
  simpa using atPosition

theorem wireCallKey_of_itemToolCall {call : ToolCall}
    (parsed : itemToolCall text .openAi item = some call) :
    isToolCallItem item ∧ wireCallKey .openAi item = call.key := by
  have isKey := itemToolCall_key text .openAi item
  rw [parsed] at isKey
  exact itemCallKey_eq_some.mp isKey.symm

/-- The calls of a transcript are answered by outputs of their own kind exactly when the name
of each replayed call tells its kind. -/
theorem callKinds_agree_iff (text : StreamText) (prompt : PromptSections)
    {transcript : List ModelContextEntry} {items : List Json}
    (rendered : transcriptToResponseItems text.toProviderText prompt transcript = .ok items)
    (hasReplays : ∀ entry ∈ transcript, ∀ message, entry.item = .assistantMessage message →
      HasAcceptedReplay text entry message) :
    CallKindsAgree text.toProviderText prompt transcript items ↔
      ReplayedKindsNamed text.toProviderText transcript := by
  have sends : ∀ {entry message answer result},
      AnsweredMessage transcript entry message answer result →
        SendsMessage text prompt entry message := by
    intro entry message answer result answered
    have inTranscript : entry ∈ transcript := answered.inOrder.subset (.head _)
    exact (hasReplays entry inTranscript message answered.isMessage).sends prompt answered.isMessage
  constructor
  · intro agree entry message answer result answered replay isReplay item listed isCall sameKey
    cases sends answered with
    | rebuilt noReplay =>
      rw [noReplay] at isReplay
      cases isReplay
      cases listed
    | replayed found isFound isSent valid calls =>
      obtain rfl : found = replay := by
        rw [isFound] at isReplay
        exact Except.ok.inj isReplay
      have inCalls : item ∈ found.filter isToolCallItem := mem_filter.mpr ⟨listed, isCall⟩
      obtain ⟨position, atPosition⟩ := mem_iff_getElem?.mp inCalls
      have parsed := itemToolCall_of_position calls position
      rw [atPosition] at parsed
      obtain ⟨call, isAt, same⟩ := map_eq_some_iff.mp parsed.symm
      obtain ⟨-, isKey⟩ := wireCallKey_of_itemToolCall same.symm
      obtain ⟨sent, callItem, sentItems, atSent, -, answers⟩ :=
        agree entry message answer result answered position call isAt (sameKey.symm.trans isKey)
      rw [isSent] at sentItems
      cases sentItems
      obtain rfl : item = callItem := by
        rw [atPosition] at atSent
        exact Option.some.inj atSent
      exact (answersItem_replayed_iff (valid item listed) isCall sameKey).mp answers
  · intro named entry message answer result answered position call isAt sameKey
    obtain ⟨sent, isSent, inOrder⟩ := answered.rendered rendered
    cases sends answered with
    | rebuilt _ rebuilds =>
      rw [rebuilds] at isSent
      obtain rfl := Except.ok.inj isSent
      have atPosition : ((assistantItems text.toProviderText message).filter
          isToolCallItem)[position]? = some (responseToolCallItem text.toProviderText call) := by
        rw [filter_assistantItems, getElem?_map, isAt]
        rfl
      have listed := (mem_filter.mp (mem_iff_getElem?.mpr ⟨position, atPosition⟩)).1
      exact ⟨_, _, rebuilds, atPosition, inOrder _ listed,
        answersItem_rebuilt text.toProviderText sameKey⟩
    | replayed replay isReplay replays valid calls =>
      rw [replays] at isSent
      obtain rfl := Except.ok.inj isSent
      have parsed := itemToolCall_of_position calls position
      rw [isAt] at parsed
      obtain ⟨callItem, atPosition, same⟩ := map_eq_some_iff.mp parsed
      obtain ⟨isCall, isKey⟩ := wireCallKey_of_itemToolCall same
      have listed := (mem_filter.mp (mem_iff_getElem?.mpr ⟨position, atPosition⟩)).1
      have sameResult := isKey.trans sameKey.symm
      have kindNamed := named entry message answer result answered replay isReplay callItem listed
        isCall sameResult
      exact ⟨replay, callItem, replays, atPosition, inOrder callItem listed,
        (answersItem_replayed_iff (valid callItem listed) isCall sameResult).mpr kindNamed⟩

def sampleAnswered (response : ModelResponse) (results : List (ToolCallId × String)) :
    List ModelContextEntry :=
  { item := .assistantMessage response.assistant, providerReplay := response.providerReplay }
    :: results.map fun (toolCallId, toolName) =>
      { item := .toolResult { toolCallId, toolName, output := "done", status := .success }
        providerReplay := [] }

theorem sampleAnswered_hasReplays {events : List SseEvent} {response : ModelResponse}
    {results : List (ToolCallId × String)}
    (accepted : parseResponsesStream text .openAi events = .ok response)
    (reads : ∀ item ∈ deliveredItems events, text.fromText (text.toText item) = some item) :
    ∀ entry ∈ sampleAnswered response results, ∀ message, entry.item = .assistantMessage message →
      HasAcceptedReplay text entry message := by
  intro entry listed message isMessage
  obtain rfl | isAnswer := mem_cons.mp listed
  · obtain rfl : response.assistant = message := by simpa using isMessage
    exact Or.inr ⟨events, response, accepted, reads, rfl, rfl⟩
  · obtain ⟨_, -, rfl⟩ := mem_map.mp isAnswer
    cases isMessage

theorem callKinds_agree_iff_sample :
    ∃ response items,
      parseResponsesStream (sampleTextOf sampleReplayItems) .openAi sampleReplayEvents =
        .ok response ∧
      (CallKindsAgree (sampleTextOf sampleReplayItems).toProviderText
          { stablePrefix := none, dynamicContext := none }
          (sampleAnswered response [("call_1", "Bash"), ("call_2", "Edit")]) items ↔
        ReplayedKindsNamed (sampleTextOf sampleReplayItems).toProviderText
          (sampleAnswered response [("call_1", "Bash"), ("call_2", "Edit")])) := by
  have accepted : parseResponsesStream (sampleTextOf sampleReplayItems) .openAi
      sampleReplayEvents = .ok _ := rfl
  exact ⟨_, _, accepted, callKinds_agree_iff _ _ rfl
    (sampleAnswered_hasReplays accepted sampleReplayItems_read)⟩

def samplePatchFunction : Json := sampleFunctionCall "call_1" "apply_patch"

def samplePatchEvents : List SseEvent :=
  [sampleEvent "response.output_item.done" (sampleIndexed 0 "item" samplePatchFunction),
    sampleEvent "response.completed" [("response", .object [("id", .string "resp_1")])]]

/-- The function call goes out again as a function call, and its result as the output of a
custom call. -/
theorem callKinds_differ_sample :
    ∃ response items,
      parseResponsesStream (sampleTextOf [samplePatchFunction]) .openAi samplePatchEvents =
        .ok response ∧
      response.assistant.toolCalls.map ToolCall.key = [("call_1", "Edit")] ∧
      transcriptToResponseItems (sampleTextOf [samplePatchFunction]).toProviderText
          { stablePrefix := none, dynamicContext := none }
          (sampleAnswered response [("call_1", "Edit")]) = .ok items ∧
      items.map (·.getStr "type") = [some "function_call", some "custom_tool_call_output"] ∧
      ¬ CallKindsAgree (sampleTextOf [samplePatchFunction]).toProviderText
          { stablePrefix := none, dynamicContext := none }
          (sampleAnswered response [("call_1", "Edit")]) items := by
  refine ⟨_, _, rfl, rfl, rfl, rfl, ?_⟩
  intro agree
  obtain ⟨sent, callItem, isSent, atSent, -, -, sameType⟩ :=
    agree _ _ _ _ ⟨List.Sublist.refl _, rfl, rfl⟩ 0 _ rfl rfl
  cases isSent
  cases atSent
  revert sameType
  decide

end PiRelay.AgentProvider
