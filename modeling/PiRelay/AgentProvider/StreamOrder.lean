import PiRelay.AgentProvider.ReplayRoundTrip
import PiRelay.Library.Cells

/-! The order of the items of an OpenAI stream. An item event works on the two items that may
be recorded at its output index, so only the order of the events of one index counts; what
the completed response is made of is read from the items at the end. -/
namespace PiRelay.AgentProvider

open AgentVocab ResponsesStreamState SseEvent List Option
open Library (Json bind_eq_ok runCells stepCell eventsAt runCells_congr consume)

def isItemEvent (event : Json) : Bool :=
  event.getStr "type" == some "response.output_item.added" ||
    event.getStr "type" == some "response.output_item.done"

def outputIndex (event : Json) : Option Nat := (event.get "output_index").bind Json.asU64

/-- The items recorded at an output index. -/
structure OutputSlot where
  added : Option Json := none
  done : Option Json := none

/-- The check of a done item against the item that was added before it. -/
def OutputSlot.reconcile (slot : OutputSlot) (index : Nat) (item : Json) : ProviderResult Unit :=
  match slot.added with
  | some added => reconcileOpenaiAddedItem index added item
  | none => .ok ()

def OutputSlot.record (slot : OutputSlot) (event : Json) : Option OutputSlot :=
  match event.getStr "type" with
  | some "response.output_item.added" => do
    let (_, item, itemType) ←
      (ResponsesStreamState.outputItemEvent event "response.output_item.added").toOption
    let _ ← (validateOpenaiAddedItemPolicy itemType item).toOption
    if slot.done.isSome then none
    else if slot.added.isSome then none
    else some { slot with added := some item }
  | some "response.output_item.done" => do
    let (index, item, _) ←
      (ResponsesStreamState.outputItemEvent event "response.output_item.done").toOption
    let _ ← (slot.reconcile index item).toOption
    if slot.done.isSome then none else some { slot with done := some item }
  | _ => none

theorem eq_ok_of_forM {α : Type} {check : α → ProviderResult Unit} {items : List α}
    (passed : items.forM check = .ok ()) : ∀ item ∈ items, check item = .ok () := by
  induction items with
  | nil => simp
  | cons _ _ ih =>
    obtain ⟨_, first, others⟩ := bind_eq_ok.mp passed
    intro other listed
    obtain rfl | inRest := mem_cons.mp listed
    · exact first
    · exact ih others other inRest

theorem toOption_eq_some {α : Type} {result : ProviderResult α} {value : α} :
    result.toOption = some value ↔ result = .ok value := by
  cases result with
  | error | ok => simp [Except.toOption]

variable {event last : Json} {slot : OutputSlot} {body : List Json}

theorem isItemEvent_iff : isItemEvent event ↔
    event.getStr "type" = some "response.output_item.added" ∨
      event.getStr "type" = some "response.output_item.done" := by
  rw [isItemEvent, Bool.or_eq_true, beq_iff_eq, beq_iff_eq]

theorem OutputSlot.record_eq_none (noIndex : outputIndex event = none) (slot : OutputSlot) :
    slot.record event = none := by
  have unread : ∀ eventType, (outputItemEvent event eventType).toOption = none := by
    intro eventType
    rw [outputIndex] at noIndex
    rw [outputItemEvent, noIndex]
    rfl
  rw [OutputSlot.record]
  split
  · rw [unread]
    rfl
  · rw [unread]
    rfl
  · rfl

theorem OutputSlot.record_item {after : OutputSlot} (isItem : isItemEvent event)
    (recorded : slot.record event = some after) :
    ∃ item, event.get "item" = some item ∧
      (event.getStr "type" = some "response.output_item.added" ∧ slot.added = none ∧
          after = { slot with added := some item } ∨
        event.getStr "type" = some "response.output_item.done" ∧
          after = { slot with done := some item }) := by
  rw [OutputSlot.record] at recorded
  rcases isItemEvent_iff.mp isItem with isType | isType
  all_goals
    rw [isType] at recorded
    obtain ⟨⟨_, item, _⟩, read, validated⟩ := bind_eq_some_iff.mp recorded
    obtain ⟨-, hasItem⟩ := outputItemEvent_eq_ok (toOption_eq_some.mp read)
    refine ⟨item, hasItem, ?_⟩
    obtain ⟨_, -, checked⟩ := bind_eq_some_iff.mp validated
    simp only [Option.ite_none_left_eq_some, not_isSome_iff_eq_none, Option.some.injEq] at checked
    clear recorded validated
    grind

theorem foldlM_record {final : OutputSlot} {events : List Json}
    (areItems : ∀ event ∈ events, isItemEvent event)
    (ran : events.foldlM OutputSlot.record slot = some final) :
    (slot.added.isSome → final.added = slot.added) ∧
    (∀ event ∈ events, ∃ item, event.get "item" = some item ∧
      (event.getStr "type" = some "response.output_item.added" → final.added = some item)) ∧
    (∀ item, final.done = some item → slot.done = some item ∨
      ∃ event ∈ events, event.getStr "type" = some "response.output_item.done" ∧
        event.get "item" = some item) := by
  induction events generalizing slot with
  | nil =>
    cases ran
    simp
  | cons event rest ih =>
    obtain ⟨_, recorded, others⟩ := bind_eq_some_iff.mp ran
    obtain ⟨isItem, areRest⟩ := forall_mem_cons.mp areItems
    obtain ⟨keeps, addedStay, doneFrom⟩ := ih areRest others
    obtain ⟨item, hasItem, ⟨isAdded, fresh, rfl⟩ | ⟨isDone, rfl⟩⟩ :=
      OutputSlot.record_item isItem recorded
    · refine ⟨by simp [fresh], ?_, ?_⟩
      · intro other listed
        obtain rfl | inRest := mem_cons.mp listed
        · exact ⟨item, hasItem, fun _ => keeps rfl⟩
        · exact addedStay other inRest
      · intro found isFound
        obtain earlier | ⟨other, inRest, isOther⟩ := doneFrom found isFound
        · exact Or.inl earlier
        · exact Or.inr ⟨other, .tail _ inRest, isOther⟩
    · refine ⟨keeps, ?_, ?_⟩
      · intro other listed
        obtain rfl | inRest := mem_cons.mp listed
        · exact ⟨item, hasItem, fun isAdded => by simp [isDone] at isAdded⟩
        · exact addedStay other inRest
      · intro found isFound
        obtain here | ⟨other, inRest, isOther⟩ := doneFrom found isFound
        · obtain rfl : item = found := Option.some.inj here
          exact Or.inr ⟨event, .head _, isDone, hasItem⟩
        · exact Or.inr ⟨other, .tail _ inRest, isOther⟩

namespace ResponsesStreamState

def slots (state : ResponsesStreamState) : Option Nat → OutputSlot
  | some index => { added := state.addedItems[index]?, done := state.outputItems[index]? }
  | none => {}

def recordItem (state : ResponsesStreamState) (event : Json) :
    ProviderResult ResponsesStreamState :=
  match event.getStr "type" with
  | some "response.output_item.added" => recordAddedItem state event
  | some "response.output_item.done" => recordDoneItem state event
  | _ => .ok state

theorem slots_insert (state : ResponsesStreamState) (index : Nat) (item : Json) :
    slots { state with addedItems := state.addedItems.insert index item } =
        Function.update (slots state) (some index)
          { slots state (some index) with added := some item } ∧
      slots { state with outputItems := state.outputItems.insert index item } =
        Function.update (slots state) (some index)
          { slots state (some index) with done := some item } := by
  refine ⟨funext fun key => ?_, funext fun key => ?_⟩
  all_goals
    cases key with
    | none => rfl
    | some other =>
      by_cases here : index = other
      · subst here
        simp [slots]
      · simp [slots, Std.TreeMap.getElem?_insert, here, Ne.symm here]

variable {event : Json} {state : ResponsesStreamState} {events : List Json}
    {first second : OutputItems}

theorem outputIndex_eq {item : Json} {eventType itemType : String} {index : Nat}
    (read : outputItemEvent event eventType = .ok (index, item, itemType)) :
    outputIndex event = some index :=
  (outputItemEvent_eq_ok read).1

theorem contains_eq_isSome (items : OutputItems) (index : Nat) :
    items.contains index = items[index]?.isSome := by
  rw [Std.TreeMap.isSome_getElem?_eq_contains]

section

variable (state : ResponsesStreamState)

theorem recordAddedItem_slots
    (isType : event.getStr "type" = some "response.output_item.added") :
    (recordAddedItem state event).toOption.map slots =
      stepCell outputIndex OutputSlot.record (slots state) event := by
  rw [stepCell, OutputSlot.record, isType, recordAddedItem]
  cases read : outputItemEvent event "response.output_item.added" with
  | error => rfl
  | ok found =>
    obtain ⟨index, item, itemType⟩ := found
    rw [outputIndex_eq read]
    cases allowed : validateOpenaiAddedItemPolicy itemType item with
    | error => simp [allowed, bind, Except.bind, Except.toOption]
    | ok =>
      have done := contains_eq_isSome state.outputItems index
      have added := contains_eq_isSome state.addedItems index
      have doneSlot : (slots state (some index)).done = state.outputItems[index]? := rfl
      have addedSlot : (slots state (some index)).added = state.addedItems[index]? := rfl
      have inserted := (slots_insert state index item).1
      by_cases isDone : state.outputItems[index]?.isSome
      · simp [allowed, bind, Except.bind, Except.toOption, done, doneSlot, isDone, refuse]
      · by_cases isAdded : state.addedItems[index]?.isSome
        · simp [allowed, bind, Except.bind, Except.toOption, done, doneSlot, isDone, added,
            addedSlot, isAdded, refuse]
        · simp [allowed, bind, Except.bind, Except.toOption, done, doneSlot, isDone, added,
            addedSlot, isAdded, inserted]

theorem recordDoneItem_eq (event : Json) :
    recordDoneItem state event =
      outputItemEvent event "response.output_item.done" >>= fun (index, item, _) =>
        (slots state (some index)).reconcile index item >>= fun _ =>
          if state.outputItems.contains index then
            refuse ("OpenAI response.output_item.done duplicated output_index " ++ toString index)
          else .ok { state with outputItems := state.outputItems.insert index item } := by
  rw [recordDoneItem]
  congr 1
  funext found
  obtain ⟨index, item, -⟩ := found
  simp only [OutputSlot.reconcile, slots]
  cases state.addedItems[index]? with
  | none | some => rfl

theorem recordDoneItem_slots
    (isType : event.getStr "type" = some "response.output_item.done") :
    (recordDoneItem state event).toOption.map slots =
      stepCell outputIndex OutputSlot.record (slots state) event := by
  rw [stepCell, OutputSlot.record, isType, recordDoneItem_eq]
  cases read : outputItemEvent event "response.output_item.done" with
  | error => rfl
  | ok found =>
    obtain ⟨index, item, _⟩ := found
    rw [outputIndex_eq read]
    have done := contains_eq_isSome state.outputItems index
    have inserted := (slots_insert state index item).2
    cases checked : (slots state (some index)).reconcile index item with
    | error => simp [checked, bind, Except.bind, Except.toOption]
    | ok =>
      have recorded : (slots state (some index)).done = state.outputItems[index]? := rfl
      by_cases isDone : state.outputItems[index]?.isSome
      · simp [checked, bind, Except.bind, Except.toOption, done, recorded, isDone, refuse]
      · simp [checked, bind, Except.bind, Except.toOption, done, recorded, isDone, inserted]

theorem recordItem_slots (isItem : isItemEvent event) :
    (recordItem state event).toOption.map slots =
      stepCell outputIndex OutputSlot.record (slots state) event := by
  obtain isAdded | isDone := isItemEvent_iff.mp isItem
  · rw [← recordAddedItem_slots state isAdded, recordItem, isAdded]
    rfl
  · rw [← recordDoneItem_slots state isDone, recordItem, isDone]
    rfl

end

theorem recordItem_provider {after : ResponsesStreamState} (isItem : isItemEvent event)
    (ran : recordItem state event = .ok after) : after.provider = state.provider := by
  rw [recordItem] at ran
  obtain isAdded | isDone := isItemEvent_iff.mp isItem
  · rw [isAdded] at ran
    exact (recordAddedItem_frame ran).2.1
  · rw [isDone] at ran
    obtain ⟨_, _, -, -, -, sameProvider, -⟩ := recordDoneItem_inserts isDone ran
    exact sameProvider

theorem foldlM_recordItem_slots (state : ResponsesStreamState)
    (areItems : ∀ event ∈ events, isItemEvent event) :
    (events.foldlM recordItem state).toOption.map slots =
      runCells outputIndex OutputSlot.record (slots state) events := by
  induction events generalizing state with
  | nil => rfl
  | cons event rest ih =>
    obtain ⟨isItem, areRest⟩ := forall_mem_cons.mp areItems
    have stepped := recordItem_slots state isItem
    rw [foldlM_cons, runCells, foldlM_cons, ← stepped]
    cases ran : recordItem state event with
    | error => rfl
    | ok after => exact ih after areRest

theorem foldlM_recordItem_provider {after : ResponsesStreamState}
    (areItems : ∀ event ∈ events, isItemEvent event)
    (ran : events.foldlM recordItem state = .ok after) : after.provider = state.provider := by
  induction events generalizing state with
  | nil =>
    cases ran
    rfl
  | cons event rest ih =>
    obtain ⟨_, first, others⟩ := bind_eq_ok.mp ran
    obtain ⟨isItem, areRest⟩ := forall_mem_cons.mp areItems
    rw [ih areRest others, recordItem_provider isItem first]

theorem consume_items (text : StreamText) (state : ResponsesStreamState)
    (areItems : ∀ event ∈ events, isItemEvent event) (rest : List SseEvent) :
    consume (processSseEvent text) state (events.map SseEvent.json ++ rest) =
      events.foldlM recordItem state >>= fun after =>
        consume (processSseEvent text) after rest := by
  induction events generalizing state with
  | nil => rfl
  | cons event later ih =>
    obtain ⟨isItem, areLater⟩ := forall_mem_cons.mp areItems
    have processed : processSseEvent text state (.json event) =
        (recordItem state event).map fun after => (after, .more) := by
      rw [processSseEvent, processEvent, recordItem]
      obtain isAdded | isDone := isItemEvent_iff.mp isItem
      · rw [isAdded]
        rfl
      · rw [isDone]
        rfl
    rw [map_cons, cons_append, consume, processed, foldlM_cons]
    cases ran : recordItem state event with
    | error => rfl
    | ok after => exact ih after areLater

section

variable (same : ∀ index : Nat, first[index]? = second[index]?)
include same

theorem toList_eq_of_getElem? : first.toList = second.toList :=
  (Std.TreeMap.Equiv.of_forall_constGet?_eq same).toList_eq

theorem reconcileTerminalItems_congr {reconciled other : OutputItems}
    (sameReconciled : reconciled.Equiv other) (index : Nat) (items : List Json) :
    (reconcileTerminalItems first reconciled index items).map Std.TreeMap.toList =
      (reconcileTerminalItems second other index items).map Std.TreeMap.toList := by
  induction items generalizing reconciled other index with
  | nil => exact congrArg Except.ok sameReconciled.toList_eq
  | cons item _ ih =>
    rw [reconcileTerminalItems, reconcileTerminalItems, same index]
    cases second[index]? with
    | none => exact ih (sameReconciled.insert index item) (index + 1)
    | some doneItem =>
      dsimp only
      cases reconcileOpenaiItemIdentity index "done" doneItem "terminal" item with
      | error => rfl
      | ok => exact ih sameReconciled (index + 1)

end

section

variable (text : StreamText)
include text

theorem materializeOutputItems_congr (same : first.toList = second.toList)
    (provider : ProviderKind) :
    materializeOutputItems text first provider = materializeOutputItems text second provider := by
  rw [materializeOutputItems, materializeOutputItems, same]

def completedItems (state : ResponsesStreamState) (response : Json) : ProviderResult OutputItems :=
  match response.get "output" with
  | some output => reconcileTerminalOutput state output
  | none => .ok state.outputItems

theorem complete_finish (state : ResponsesStreamState) (event : Json) :
    complete text state event >>= finish =
      completedResponse text event >>= fun response =>
        reconcileAddedItems state >>= fun _ =>
          completedItems state response >>= fun items =>
            materializeOutputItems text items state.provider >>= fun materialized =>
              .ok
                { assistant := { items := materialized.items }
                  providerReplay := materialized.providerReplay
                  usage := (response.get "usage").bind openaiUsage
                  stopReason := materialized.stopReason
                  stopDetails := materialized.stopDetails } := by
  rw [complete]
  cases completedResponse text event with
  | error => rfl
  | ok response =>
    cases reconcileAddedItems state with
    | error => rfl
    | ok =>
      cases isOutput : response.get "output" with
      | none =>
        cases materialized : materializeOutputItems text state.outputItems state.provider with
        | error => simp [bind, Except.bind, completedItems, isOutput, materialized]
        | ok => simp [bind, Except.bind, completedItems, isOutput, materialized, finish]
      | some output =>
        cases found : reconcileTerminalOutput state output with
        | error => simp [bind, Except.bind, completedItems, isOutput, found]
        | ok items =>
          cases materialized : materializeOutputItems text items state.provider with
          | error => simp [bind, Except.bind, completedItems, isOutput, found, materialized]
          | ok =>
            simp [bind, Except.bind, completedItems, isOutput, found, materialized, finish]

theorem complete_congr {first second : ResponsesStreamState}
    (sameSlots : slots first = slots second) (sameProvider : first.provider = second.provider)
    (event : Json) :
    complete text first event >>= finish = complete text second event >>= finish := by
  have added : ∀ index : Nat, first.addedItems[index]? = second.addedItems[index]? :=
    fun index => congrArg OutputSlot.added (congrFun sameSlots (some index))
  have done : ∀ index : Nat, first.outputItems[index]? = second.outputItems[index]? :=
    fun index => congrArg OutputSlot.done (congrFun sameSlots (some index))
  have sameAdded : reconcileAddedItems first = reconcileAddedItems second := by
    rw [reconcileAddedItems, reconcileAddedItems, toList_eq_of_getElem? added]
    simp only [done]
  have sameItems : ∀ response, (completedItems first response).map Std.TreeMap.toList =
      (completedItems second response).map Std.TreeMap.toList := by
    intro response
    rw [completedItems, completedItems]
    cases response.get "output" with
    | none => exact congrArg Except.ok (toList_eq_of_getElem? done)
    | some output =>
      dsimp only
      rw [reconcileTerminalOutput, reconcileTerminalOutput]
      cases output.asArray with
      | none => rfl
      | some items =>
        exact reconcileTerminalItems_congr done (Std.TreeMap.Equiv.of_forall_constGet?_eq done)
          0 items
  rw [complete_finish, complete_finish, sameAdded, sameProvider]
  congr 1
  funext response
  congr 1
  funext _
  have same := sameItems response
  cases firstItems : completedItems first response with
  | error error =>
    cases secondItems : completedItems second response with
    | error =>
      rw [firstItems, secondItems] at same
      cases same
      rfl
    | ok =>
      rw [firstItems, secondItems] at same
      cases same
  | ok items =>
    cases secondItems : completedItems second response with
    | error =>
      rw [firstItems, secondItems] at same
      cases same
    | ok other =>
      rw [firstItems, secondItems] at same
      show materializeOutputItems text items second.provider >>= _ =
        materializeOutputItems text other second.provider >>= _
      rw [materializeOutputItems_congr text (Except.ok.inj same)]

theorem consume_completed (state : ResponsesStreamState) {last : Json}
    (isLast : last.getStr "type" = some "response.completed") :
    consume (processSseEvent text) state [.json last] = complete text state last := by
  rw [consume, processSseEvent, processEvent, isLast]
  cases complete text state last with
  | error | ok => rfl

end

theorem reconcileAddedItems_eq_ok (reconciled : reconcileAddedItems state = .ok ()) {index : Nat}
    {added : Json} (isAdded : state.addedItems[index]? = some added) :
    ∃ done, state.outputItems[index]? = some done ∧
      reconcileOpenaiAddedItem index added done = .ok () := by
  have listed := Std.TreeMap.mem_toList_iff_getElem?_eq_some.mpr isAdded
  have passed := eq_ok_of_forM reconciled _ listed
  dsimp only at passed
  split at passed
  · rename_i done isDone
    exact ⟨done, isDone, passed⟩
  · cases passed

end ResponsesStreamState

def itemStream (body : List Json) (last : Json) : List SseEvent :=
  body.map SseEvent.json ++ [.json last]

/-- The same item events, those of each output index in the same order. -/
structure Reordered (body other : List Json) : Prop where
  perm : body.Perm other
  inOrder : ∀ index : Nat,
    eventsAt outputIndex (some index) body = eventsAt outputIndex (some index) other

theorem foldlM_record_noIndex (slot : OutputSlot) (events : List Json) :
    (eventsAt outputIndex none events).foldlM OutputSlot.record slot =
      if eventsAt outputIndex none events = [] then some slot else none := by
  cases isEvents : eventsAt outputIndex none events with
  | nil => rfl
  | cons event =>
    have listed : event ∈ eventsAt outputIndex none events := by
      rw [isEvents]
      exact (.head _)
    have noIndex : outputIndex event = none := by
      simpa using (mem_filter.mp listed).2
    rw [foldlM_cons, OutputSlot.record_eq_none noIndex, if_neg (by simp)]
    rfl

theorem Reordered.runCells {other : List Json} (reordered : Reordered body other)
    (cells : Option Nat → OutputSlot) :
    runCells outputIndex OutputSlot.record cells body =
      runCells outputIndex OutputSlot.record cells other := by
  refine runCells_congr fun key => ?_
  cases key with
  | some index => rw [reordered.inOrder index]
  | none =>
    have perm : (eventsAt outputIndex none body).Perm (eventsAt outputIndex none other) :=
      reordered.perm.filter _
    have sameEmpty :
        eventsAt outputIndex none body = [] ↔ eventsAt outputIndex none other = [] := by
      rw [← length_eq_zero_iff, ← length_eq_zero_iff, perm.length_eq]
    rw [foldlM_record_noIndex, foldlM_record_noIndex]
    simp only [sameEmpty]

theorem parseResponsesStream_itemStream (text : StreamText) (provider : ProviderKind)
    (areItems : ∀ event ∈ body, isItemEvent event)
    (isLast : last.getStr "type" = some "response.completed") :
    parseResponsesStream text provider (itemStream body last) =
      body.foldlM ResponsesStreamState.recordItem (.new provider) >>= fun state =>
        ResponsesStreamState.complete text state last >>= ResponsesStreamState.finish := by
  rw [parseResponsesStream, itemStream, consume_items text _ areItems]
  simp only [consume_completed text _ isLast]
  cases body.foldlM recordItem (.new provider) with
  | error | ok => rfl

/-- Items may be reordered across output indices. -/
theorem parseResponsesStream_reordered (text : StreamText) (provider : ProviderKind)
    {other : List Json} (areItems : ∀ event ∈ body, isItemEvent event)
    (isLast : last.getStr "type" = some "response.completed") (reordered : Reordered body other) :
    (parseResponsesStream text provider (itemStream body last)).toOption =
      (parseResponsesStream text provider (itemStream other last)).toOption := by
  have otherItems : ∀ event ∈ other, isItemEvent event :=
    fun event listed => areItems event (reordered.perm.mem_iff.mpr listed)
  have sameSlots := reordered.runCells (slots (.new provider))
  rw [← foldlM_recordItem_slots _ areItems, ← foldlM_recordItem_slots _ otherItems] at sameSlots
  rw [parseResponsesStream_itemStream text provider areItems isLast,
    parseResponsesStream_itemStream text provider otherItems isLast]
  cases ran : body.foldlM recordItem (.new provider) with
  | error error =>
    cases otherRan : other.foldlM recordItem (.new provider) with
    | error => rfl
    | ok =>
      rw [ran, otherRan] at sameSlots
      cases sameSlots
  | ok =>
    cases otherRan : other.foldlM recordItem (.new provider) with
    | error =>
      rw [ran, otherRan] at sameSlots
      cases sameSlots
    | ok =>
      rw [ran, otherRan] at sameSlots
      have isProvider := foldlM_recordItem_provider areItems ran
      have otherProvider := foldlM_recordItem_provider otherItems otherRan
      have same := complete_congr text (Option.some.inj sameSlots)
        (isProvider.trans otherProvider.symm) last
      exact congrArg Except.toOption same

theorem not_completed_of_isItemEvent (isItem : isItemEvent event) :
    SseEvent.hasType "response.completed" (.json event) = false := by
  obtain isAdded | isDone := isItemEvent_iff.mp isItem
  · simp [hasType, eventType, isAdded]
  · simp [hasType, eventType, isDone]

theorem eventsBefore_itemStream (areItems : ∀ event ∈ body, isItemEvent event)
    (isLast : last.getStr "type" = some "response.completed") :
    eventsBefore "response.completed" (itemStream body last) = body.map SseEvent.json ∧
      terminalItems (itemStream body last) = listedItems last := by
  have ends : hasType "response.completed" (.json last) := by
    simp [hasType, eventType, isLast]
  have found : (itemStream body last).find? (·.hasType "response.completed") = some (.json last) ∧
      eventsBefore "response.completed" (itemStream body last) = body.map json := by
    induction body with
    | nil => simp [itemStream, eventsBefore, ends]
    | cons event _ ih =>
      have goesOn := not_completed_of_isItemEvent (areItems event (.head _))
      have later := ih (forall_mem_cons.mp areItems).2
      simpa [itemStream, eventsBefore, goesOn] using later
  constructor
  · exact found.2
  · rw [terminalItems]
    rw [found.1]

theorem accepted_slots {text : StreamText} {provider : ProviderKind} {response : ModelResponse}
    (areItems : ∀ event ∈ body, isItemEvent event)
    (isLast : last.getStr "type" = some "response.completed")
    (accepted : parseResponsesStream text provider (itemStream body last) = .ok response) :
    ∃ state : ResponsesStreamState, ResponsesStreamState.reconcileAddedItems state = .ok () ∧
      ∀ key, (eventsAt outputIndex key body).foldlM OutputSlot.record {} =
        some (state.slots key) := by
  rw [parseResponsesStream_itemStream text provider areItems isLast] at accepted
  obtain ⟨state, ran, finished⟩ := bind_eq_ok.mp accepted
  rw [complete_finish] at finished
  obtain ⟨_, -, completes⟩ := bind_eq_ok.mp finished
  obtain ⟨_, reconciled, -⟩ := bind_eq_ok.mp completes
  refine ⟨state, reconciled, fun key => ?_⟩
  have sameSlots := foldlM_recordItem_slots (.new provider) areItems
  rw [ran] at sameSlots
  have atKey := Library.runCells_eq_some_iff.mp sameSlots.symm key
  have empty : slots (.new provider) key = {} := by
    cases key with
    | none => rfl
    | some => simp [slots, new]
  rw [empty] at atKey
  exact atKey

theorem accepted_outputIndex {slots : Option Nat → OutputSlot}
    (ran : ∀ key, (eventsAt outputIndex key body).foldlM OutputSlot.record {} = some (slots key))
    (listed : event ∈ body) : ∃ index, outputIndex event = some index := by
  cases isIndex : outputIndex event with
  | some index => exact ⟨index, rfl⟩
  | none =>
    have inEvents : event ∈ eventsAt outputIndex none body :=
      mem_filter.mpr ⟨listed, by simp [isIndex]⟩
    have refused := ran none
    rw [foldlM_record_noIndex, if_neg (ne_nil_of_mem inEvents)] at refused
    cases refused

theorem mem_doneItems_of_event {item : Json} {index : Nat} (listed : event ∈ body)
    (isDone : event.getStr "type" = some "response.output_item.done")
    (isIndex : outputIndex event = some index) (hasItem : event.get "item" = some item) :
    (index, item) ∈ doneItems (body.map SseEvent.json) := by
  refine mem_filterMap.mpr ⟨_, mem_map_of_mem listed, ?_⟩
  rw [outputIndex] at isIndex
  rw [doneItem, if_pos isDone, isIndex, hasItem]
  rfl

theorem accepted_recorded {slots : Option Nat → OutputSlot}
    (areItems : ∀ event ∈ body, isItemEvent event)
    (ran : ∀ key, (eventsAt outputIndex key body).foldlM OutputSlot.record {} = some (slots key))
    (listed : event ∈ body) :
    ∃ index item, outputIndex event = some index ∧ event.get "item" = some item ∧
      (event.getStr "type" = some "response.output_item.added" →
        (slots (some index)).added = some item) ∧
      ∀ done, (slots (some index)).done = some done →
        (index, done) ∈ doneItems (body.map SseEvent.json) := by
  obtain ⟨index, isIndex⟩ := accepted_outputIndex ran listed
  have areEvents : ∀ other ∈ eventsAt outputIndex (some index) body, isItemEvent other :=
    fun other inEvents => areItems other (mem_filter.mp inEvents).1
  have inEvents : event ∈ eventsAt outputIndex (some index) body :=
    mem_filter.mpr ⟨listed, by simp [isIndex]⟩
  obtain ⟨-, addedStay, doneFrom⟩ := foldlM_record areEvents (ran (some index))
  obtain ⟨item, hasItem, isStored⟩ := addedStay event inEvents
  refine ⟨index, item, isIndex, hasItem, isStored, fun done isDone => ?_⟩
  obtain never | ⟨other, otherIn, otherDone, otherItem⟩ := doneFrom done isDone
  · cases never
  · obtain ⟨inBody, atIndex⟩ := mem_filter.mp otherIn
    exact mem_doneItems_of_event inBody otherDone (of_decide_eq_true atIndex) otherItem

section

variable {state : ResponsesStreamState} (areItems : ∀ event ∈ body, isItemEvent event)
  (reconciled : ResponsesStreamState.reconcileAddedItems state = .ok ())
  (ran : ∀ key, (eventsAt outputIndex key body).foldlM OutputSlot.record {} =
    some (state.slots key)) (listed : event ∈ body)
include areItems reconciled ran listed

theorem accepted_added_done
    (isAdded : event.getStr "type" = some "response.output_item.added") :
    ∃ index added done, outputIndex event = some index ∧ event.get "item" = some added ∧
      (index, done) ∈ doneItems (body.map SseEvent.json) ∧
      reconcileOpenaiAddedItem index added done = .ok () := by
  obtain ⟨index, added, isIndex, hasItem, isStored, areDone⟩ := accepted_recorded areItems ran listed
  obtain ⟨done, isDone, same⟩ := reconcileAddedItems_eq_ok reconciled (isStored isAdded)
  exact ⟨index, added, done, isIndex, hasItem, areDone done isDone, same⟩

theorem accepted_event_done :
    ∃ index done, outputIndex event = some index ∧
      (index, done) ∈ doneItems (body.map SseEvent.json) := by
  obtain isAdded | isDone := isItemEvent_iff.mp (areItems event listed)
  · obtain ⟨index, _, done, isIndex, -, isDone, -⟩ :=
      accepted_added_done areItems reconciled ran listed isAdded
    exact ⟨index, done, isIndex, isDone⟩
  · obtain ⟨index, item, isIndex, hasItem, -⟩ := accepted_recorded areItems ran listed
    exact ⟨index, item, isIndex, mem_doneItems_of_event listed isDone isIndex hasItem⟩

end

theorem outputIndex_of_mem_doneItems {index : Nat} {item : Json}
    (isDone : (index, item) ∈ doneItems (body.map SseEvent.json)) :
    ∃ event ∈ body, outputIndex event = some index := by
  obtain ⟨_, listed, isItem⟩ := mem_filterMap.mp isDone
  obtain ⟨event, inBody, rfl⟩ := mem_map.mp listed
  refine ⟨event, inBody, ?_⟩
  rw [doneItem] at isItem
  split at isItem
  · obtain ⟨_, isIndex, rest⟩ := bind_eq_some_iff.mp isItem
    obtain ⟨_, -, same⟩ := bind_eq_some_iff.mp rest
    cases same
    exact isIndex
  · cases isItem

/-- The order of the items of a stream counts only within an output index. In an accepted
stream the indices are those below the number of the items of the response; what was added
was done; and the completed response adds items only where none was done. -/
theorem item_stream_order (text : StreamText) (provider : ProviderKind) {body : List Json}
    {last : Json} (areItems : ∀ event ∈ body, isItemEvent event = true)
    (isLast : last.getStr "type" = some "response.completed") :
    (∀ other, Reordered body other →
      (parseResponsesStream text provider (itemStream other last)).toOption =
        (parseResponsesStream text provider (itemStream body last)).toOption) ∧
    ∀ response, parseResponsesStream text provider (itemStream body last) = .ok response →
      ∃ items, AcceptedItems text provider (itemStream body last) response items ∧
        (∀ index, index < items.length ↔ (∃ event ∈ body, outputIndex event = some index) ∨
          index < (listedItems last).length) ∧
        (∀ event ∈ body, event.getStr "type" = some "response.output_item.added" →
          ∃ index added done, outputIndex event = some index ∧ event.get "item" = some added ∧
            (index, done) ∈ doneItems (body.map SseEvent.json) ∧
            reconcileOpenaiAddedItem index added done = .ok ()) ∧
        ∀ index item, items[index]? = some item ↔
          (index, item) ∈ doneItems (body.map SseEvent.json) ∨
            (index ∉ (doneItems (body.map SseEvent.json)).map Prod.fst ∧
              (listedItems last)[index]? = some item) := by
  constructor
  · intro other reordered
    exact (parseResponsesStream_reordered text provider areItems isLast reordered).symm
  · intro response accepted
    obtain ⟨items, isAccepted⟩ := parseResponsesStream_items accepted
    obtain ⟨_, reconciled, ran⟩ := accepted_slots areItems isLast accepted
    obtain ⟨before, terminal⟩ := eventsBefore_itemStream areItems isLast
    have delivered := isAccepted.delivered
    simp only [DeliveredAt, before, terminal] at delivered
    refine ⟨items, isAccepted, ?_, ?_, delivered⟩
    · intro index
      constructor
      · intro below
        obtain isDone | ⟨-, listed⟩ := (delivered index _).mp (getElem?_eq_getElem below)
        · exact Or.inl (outputIndex_of_mem_doneItems isDone)
        · exact Or.inr (List.getElem?_eq_some_iff.mp listed).1
      · rintro (⟨event, inBody, isIndex⟩ | below)
        · obtain ⟨found, done, isFound, isDone⟩ :=
            accepted_event_done areItems reconciled ran inBody
          obtain rfl : found = index := by
            rw [isFound] at isIndex
            exact Option.some.inj isIndex
          exact (List.getElem?_eq_some_iff.mp ((delivered found done).mpr (Or.inl isDone))).1
        · by_cases isDone : index ∈ (doneItems (body.map json)).map Prod.fst
          · obtain ⟨⟨_, done⟩, entry, rfl⟩ := mem_map.mp isDone
            exact (List.getElem?_eq_some_iff.mp ((delivered _ done).mpr (Or.inl entry))).1
          · have terminalItem := getElem?_eq_getElem below
            have isItem := (delivered index _).mpr (Or.inr ⟨isDone, terminalItem⟩)
            exact (List.getElem?_eq_some_iff.mp isItem).1
    · intro event listed isAdded
      exact accepted_added_done areItems reconciled ran listed isAdded

def sampleItemEvent (type : String) (index : Nat) (item : Json) : Json :=
  .object (("type", .string type) :: sampleIndexed index "item" item)

def sampleLastEvent : Json :=
  .object [("type", .string "response.completed"), ("response", .object [("id", .string "resp_1")])]

def sampleAdded : Json :=
  sampleItemEvent "response.output_item.added" 0 (sampleFunctionCall "call_1" "Bash")

/-- An item that is done before the other, and after it. -/
def sampleDone : Json :=
  sampleItemEvent "response.output_item.done" 1 (sampleCustomCall "call_2" "apply_patch")

def sampleAddedDone : Json :=
  sampleItemEvent "response.output_item.done" 0 (sampleFunctionCall "call_1" "Bash")

theorem item_stream_order_sample :
    (parseResponsesStream sampleStreamText .openAi
        (itemStream [sampleDone, sampleAdded, sampleAddedDone] sampleLastEvent)).toOption =
      (parseResponsesStream sampleStreamText .openAi
        (itemStream [sampleAdded, sampleDone, sampleAddedDone] sampleLastEvent)).toOption ∧
    ∃ response, parseResponsesStream sampleStreamText .openAi
      (itemStream [sampleAdded, sampleDone, sampleAddedDone] sampleLastEvent) = .ok response := by
  have ordered := item_stream_order sampleStreamText .openAi
    (show ∀ event ∈ [sampleAdded, sampleDone, sampleAddedDone], isItemEvent event by
      decide)
    (show sampleLastEvent.getStr "type" = some "response.completed" by rfl)
  refine ⟨ordered.1 _ ⟨.swap _ _ _, fun index => ?_⟩, _, rfl⟩
  match index with
  | 0 => rfl
  | 1 => rfl
  | _ + 2 => rfl

end PiRelay.AgentProvider
