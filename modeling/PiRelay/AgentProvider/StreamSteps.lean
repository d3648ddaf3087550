import PiRelay.AgentProvider.DistinctCalls

/-! What one event of an Anthropic stream asks of the state it finds: for each type of event
the exact condition under which it is taken, and what it leaves. -/
namespace PiRelay.AgentProvider

open AgentVocab List Option
open Library (Json bind_eq_ok Control)

def streamEventTypes : List String :=
  ["message_start", "content_block_start", "content_block_delta", "content_block_stop",
    "message_delta", "message_stop", "error"]

def isStreamEvent (event : Json) : Bool :=
  streamEventTypes.any fun type => event.getStr "type" == some type

def eventIndex (event : Json) : Option Nat := (event.get "index").bind Json.asU64

variable {event : Json} {category explanation : String}

variable {eventType : String}

theorem anthropicStreamIndex_ok_iff {index : Nat} :
    anthropicStreamIndex event eventType = .ok index ↔ eventIndex event = some index := by
  rw [anthropicStreamIndex, eventIndex]
  cases (event.get "index").bind Json.asU64 with
  | none => simp [refuse]
  | some => simp

theorem eventObject_ok_iff {object : Json} {eventType name : String} :
    eventObject event eventType name = .ok object ↔
      event.get name = some object ∧ object.isObject := by
  constructor
  · intro read
    have found := AnthropicStreamState.eventObject_eq_ok read
    refine ⟨found, ?_⟩
    rw [eventObject, found] at read
    cases object with
    | object => rfl
    | _ => cases read
  · rintro ⟨found, isObject⟩
    rw [eventObject, found]
    cases object with
    | object => rfl
    | _ => cases isObject

theorem pointer_asStr (event : Json) (name field : String) :
    (event.pointer [name, field]).bind Json.asStr = (event.get name).bind (·.getStr field) := by
  cases found : event.get name with
  | none => simp [Json.pointer, found]
  | some => simp [Json.pointer, found, Json.getStr]

theorem isCompactionEvent_of_start (isType : event.getStr "type" = some "content_block_start") :
    isCompactionEvent event = ((event.get "content_block").bind (·.getStr "type") ==
      some "compaction") := by
  rw [isCompactionEvent, isType, ← pointer_asStr]
  rfl

theorem isCompactionEvent_of_delta (isType : event.getStr "type" = some "content_block_delta") :
    isCompactionEvent event = ((event.get "delta").bind (·.getStr "type") ==
      some "compaction_delta") := by
  rw [isCompactionEvent, isType, ← pointer_asStr]
  rfl

theorem isCompactionEvent_of_messageDelta (isType : event.getStr "type" = some "message_delta") :
    isCompactionEvent event = (eventStopReason event == some "compaction") := by
  rw [isCompactionEvent, isType, eventStopReason, ← pointer_asStr]
  rfl

theorem isCompactionEvent_of_stop {type : String} (isType : event.getStr "type" = some type)
    (isStop : type = "content_block_stop" ∨ type = "message_stop" ∨ type = "error") :
    isCompactionEvent event = false := by
  rw [isCompactionEvent, isType]
  obtain rfl | rfl | rfl := isStop <;> rfl

theorem applyDelta_type {block delta filled : Json} (applied : applyDelta block delta = .ok filled) :
    ∃ deltaType, delta.getStr "type" = some deltaType ∧ deltaType ∈ deltaTypes := by
  have typed : ∃ blockType, (block.getStr "type").bind nonempty = some blockType := by
    obtain ⟨blockType, isType, -⟩ := bind_eq_ok.mp applied
    exact ⟨blockType, anthropicBlockType_eq_ok_iff.mp isType⟩
  obtain ⟨blockType, isType⟩ := typed
  cases (applyDelta_eq_ok_iff isType).mp applied with
  | input isDelta | said isDelta | thought isDelta | signature isDelta
  | citation isDelta => exact ⟨_, isDelta, by decide⟩

theorem validStart_not_compaction {block : Json}
    (valid : validateAnthropicStreamContentStart block = .ok ()) :
    block.getStr "type" ≠ some "compaction" := by
  intro isType
  rw [validateAnthropicStreamContentStart,
    anthropicBlockType_eq_ok_iff.mpr (typed_of_getStr isType (by decide))] at valid
  cases valid

/-- A delta of the message that is well formed in itself: its stop reason and its details. -/
structure MessageDelta (text : StreamText) (event : Json) (reason : Option String)
    (details : Option ModelStopDetails) : Prop where
  type : event.getStr "type" = some "message_delta"
  delta : ∃ delta, event.get "delta" = some delta ∧ delta.isObject = true ∧
    anthropicStopDetails text (delta.get "stop_details") = .ok details ∧
    deltaStopReason text delta details.isSome (event.get "usage").isSome = .ok reason
  usage : ∃ update, anthropicMessageDeltaUsage (event.get "usage") = .ok update

theorem MessageDelta.stopReason {text : StreamText} {reason : Option String}
    {details : Option ModelStopDetails} (legal : MessageDelta text event reason details) :
    eventStopReason event = reason := by
  obtain ⟨_, isDelta, -, -, read⟩ := legal.delta
  rw [eventStopReason, isDelta, AnthropicStreamState.deltaStopReason_eq_ok read]
  rfl

def terminalReasons : List String :=
  ["end_turn", "stop_sequence", "tool_use", "max_tokens", "refusal"]

theorem modelStopReason_ok_iff {stopReason : String} :
    (∃ reason, modelStopReason stopReason = .ok reason) ↔ stopReason ∈ terminalReasons := by
  constructor
  · rintro ⟨reason, known⟩
    unfold modelStopReason at known
    split at known <;> first | decide | cases known
  · intro listed
    simp only [terminalReasons, mem_cons, not_mem_nil, or_false] at listed
    obtain rfl | rfl | rfl | rfl | rfl := listed <;> exact ⟨_, rfl⟩

/-- The category and the explanation that details give, where they give them. -/
def GivenAs (category explanation : String) (details : Option ModelStopDetails) : Prop :=
  ∀ found, details = some found →
    (∀ given, found.category = some given → given = category) ∧
      ∀ given, found.explanation = some given → given = explanation

theorem mergeStopDetail_ok_iff {field : String} {current update : Option String} {value : String} :
    (∃ merged, mergeStopDetail field current update = .ok merged ∧
        ∀ given, merged = some given → given = value) ↔
      (∀ given, current = some given → given = value) ∧
        ∀ given, update = some given → given = value := by
  cases current with
  | none =>
    cases update with
    | none | some => simp [mergeStopDetail]
  | some existing =>
    cases update with
    | none => simp [mergeStopDetail]
    | some update =>
      rw [mergeStopDetail]
      by_cases same : existing = update
      · simp [same]
      · have apart : existing = value → update ≠ value := by
          rintro rfl rfl
          exact same rfl
        simpa [same, refuse] using apart

theorem givenAs_some_iff {details : ModelStopDetails} :
    GivenAs category explanation (some details) ↔
      (∀ given, details.category = some given → given = category) ∧
        ∀ given, details.explanation = some given → given = explanation := by
  simp [GivenAs]

theorem givenAs_getD {details : Option ModelStopDetails} :
    GivenAs category explanation (some (details.getD {})) ↔
      GivenAs category explanation details := by
  cases details with
  | none => simp [GivenAs]
  | some => rfl

theorem mergeAnthropicStopDetails_ok_iff {current : Option ModelStopDetails}
    {update : ModelStopDetails} :
    (∃ merged, mergeAnthropicStopDetails current update = .ok merged ∧
        GivenAs category explanation (some merged)) ↔
      GivenAs category explanation current ∧ GivenAs category explanation (some update) := by
  rw [← givenAs_getD, givenAs_some_iff, givenAs_some_iff, and_and_and_comm,
    ← @mergeStopDetail_ok_iff "category", ← @mergeStopDetail_ok_iff "explanation"]
  constructor
  · rintro ⟨merged, isMerged, given⟩
    obtain ⟨mergedCategory, isCategory, explained⟩ := bind_eq_ok.mp isMerged
    obtain ⟨mergedExplanation, isExplanation, made⟩ := bind_eq_ok.mp explained
    cases made
    rw [givenAs_some_iff] at given
    exact ⟨⟨mergedCategory, isCategory, given.1⟩, mergedExplanation, isExplanation, given.2⟩
  · rintro ⟨⟨mergedCategory, isCategory, givenCategory⟩,
      mergedExplanation, isExplanation, givenExplanation⟩
    refine ⟨{ category := mergedCategory, explanation := mergedExplanation }, ?_, ?_⟩
    · exact bind_eq_ok.mpr ⟨_, isCategory, bind_eq_ok.mpr ⟨_, isExplanation, rfl⟩⟩
    · exact givenAs_some_iff.mpr ⟨givenCategory, givenExplanation⟩

/-- Whatever was given has a category and an explanation it is given as. -/
theorem exists_givenAs (details : Option ModelStopDetails) :
    ∃ category explanation, GivenAs category explanation details := by
  refine ⟨((details.bind (·.category)).getD ""), ((details.bind (·.explanation)).getD ""), ?_⟩
  rintro found rfl
  constructor
  · intro given isGiven
    simp [isGiven]
  · intro given isGiven
    simp [isGiven]

namespace AnthropicStreamState

variable {text : StreamText} {state after : AnthropicStreamState} {event : Json}
    {control : SseControl} {index : Nat} {details : Option ModelStopDetails}

theorem processSseEvent_absorb_iff (goesOn : event.getStr "type" ≠ some "message_stop") :
    state.processSseEvent text (.json event) = .ok (after, control) ↔
      isCompactionEvent event = false ∧ control = .more ∧ state.absorb text event = .ok after := by
  rw [processSseEvent, processEvent, rejectOrdinaryCompactionEvent]
  cases isCompactionEvent event with
  | true => simp [bind, Except.bind]
  | false =>
    cases absorbed : state.absorb text event with
    | error => simp [bind, Except.bind, goesOn, Except.map]
    | ok next =>
      constructor
      · intro ran
        have same : next = after ∧ Control.more = control := by
          simpa [bind, Except.bind, goesOn, Except.map] using ran
        exact ⟨rfl, same.2.symm, congrArg Except.ok same.1⟩
      · rintro ⟨-, rfl, same⟩
        cases same
        simp [bind, Except.bind, goesOn, Except.map]

theorem requireContentPhase_ok_iff :
    state.requireContentPhase eventType = .ok () ↔
      state.messageStarted ∧ state.terminalStopReason = none := by
  rw [requireContentPhase]
  cases state.messageStarted with
  | false => simp [refuse]
  | true =>
    cases state.terminalStopReason with
    | none => simp
    | some => simp [refuse]

theorem requireClosed_ok_iff :
    state.requireClosed eventType = .ok () ↔
      state.messageStarted ∧ state.activeContentBlock = none := by
  rw [requireClosed]
  cases state.messageStarted with
  | false => simp [refuse]
  | true =>
    cases state.activeContentBlock with
    | none => simp
    | some => simp [refuse]

theorem startContentBlock_ok_iff {block : Json} :
    state.startContentBlock index block = .ok after ↔
      state.activeContentBlock = none ∧ index = state.nextContentBlockIndex ∧
        validateAnthropicStreamContentStart block = .ok () ∧
        after = { state with
          activeContentBlock := some (index, normalizeStreamContentStart block) } := by
  rw [startContentBlock]
  cases state.activeContentBlock with
  | some => simp [refuse]
  | none =>
    by_cases isNext : index = state.nextContentBlockIndex
    · cases validateAnthropicStreamContentStart block with
      | error => simp [isNext, bind, Except.bind]
      | ok =>
        simp only [ne_eq, isNext, not_true_eq_false, if_false, bind, Except.bind, true_and]
        exact ⟨fun same => (Except.ok.inj same).symm, fun same => congrArg Except.ok same.symm⟩
    · simp [isNext, refuse]

theorem applyContentDelta_ok_iff {delta : Json} :
    state.applyContentDelta index delta = .ok after ↔
      ∃ block filled, state.activeContentBlock = some (index, block) ∧
        applyDelta block delta = .ok filled ∧
        after = { state with activeContentBlock := some (index, filled) } := by
  rw [applyContentDelta]
  cases state.activeContentBlock with
  | none => simp [refuse]
  | some active =>
    obtain ⟨activeIndex, block⟩ := active
    by_cases same : index = activeIndex
    · subst same
      cases applied : applyDelta block delta with
      | error => simp [bind, Except.bind, applied]
      | ok filled =>
        constructor
        · intro ran
          have written : { state with activeContentBlock := some (index, filled) } = after := by
            simpa [bind, Except.bind, applied] using ran
          exact ⟨block, filled, rfl, applied, written.symm⟩
        · rintro ⟨_, _, found, applies, rfl⟩
          cases found
          rw [applied] at applies
          cases applies
          simp [bind, Except.bind, applied]
    · simp [same, Ne.symm same, refuse]

theorem finishContentBlock_ok_iff :
    state.finishContentBlock text index = .ok after ↔
      ∃ block final items replay, state.activeContentBlock = some (index, block) ∧
        finalizeStreamContentBlock text block = .ok final ∧
        pushAnthropicContentBlock text final state.items state.providerReplay =
          .ok (items, replay) ∧
        after = { state with
          activeContentBlock := none
          items := items
          providerReplay := replay
          nextContentBlockIndex := state.nextContentBlockIndex + 1 } := by
  rw [finishContentBlock]
  cases state.activeContentBlock with
  | none => simp [refuse]
  | some active =>
    obtain ⟨activeIndex, block⟩ := active
    by_cases same : index = activeIndex
    · subst same
      dsimp only
      rw [if_neg (not_not_intro rfl)]
      constructor
      · intro ran
        obtain ⟨final, isFinal, pushes⟩ := bind_eq_ok.mp ran
        obtain ⟨⟨items, replay⟩, isPushed, written⟩ := bind_eq_ok.mp pushes
        exact ⟨block, final, items, replay, rfl, isFinal, isPushed, (Except.ok.inj written).symm⟩
      · rintro ⟨_, final, items, replay, found, isFinal, isPushed, rfl⟩
        cases found
        exact bind_eq_ok.mpr ⟨final, isFinal, bind_eq_ok.mpr ⟨(items, replay), isPushed, rfl⟩⟩
    · simp [same, Ne.symm same, refuse]

theorem content_ok_iff {read : Nat → ProviderResult AnthropicStreamState} :
    (state.requireContentPhase eventType >>= fun _ => anthropicStreamIndex event eventType >>= read) =
        .ok after ↔
      state.messageStarted ∧ state.terminalStopReason = none ∧
        ∃ index, eventIndex event = some index ∧ read index = .ok after := by
  rw [← and_assoc, bind_eq_ok]
  simp only [bind_eq_ok, anthropicStreamIndex_ok_iff]
  exact ⟨fun ⟨_, inPhase, indexed⟩ => ⟨requireContentPhase_ok_iff.mp inPhase, indexed⟩,
    fun ⟨inPhase, indexed⟩ => ⟨(), requireContentPhase_ok_iff.mpr inPhase, indexed⟩⟩

theorem process_start_iff (isType : event.getStr "type" = some "content_block_start") :
    state.processSseEvent text (.json event) = .ok (after, control) ↔
      control = .more ∧ state.messageStarted ∧ state.terminalStopReason = none ∧
        state.activeContentBlock = none ∧
        eventIndex event = some state.nextContentBlockIndex ∧
        ∃ block, event.get "content_block" = some block ∧
          validateAnthropicStreamContentStart block = .ok () ∧
          after = { state with
            activeContentBlock :=
              some (state.nextContentBlockIndex, normalizeStreamContentStart block) } := by
  rw [processSseEvent_absorb_iff (by simp [isType]), isCompactionEvent_of_start isType]
  have absorbs : state.absorb text event = state.contentBlockStart event := by
    rw [absorb, isType]
    rfl
  rw [absorbs, contentBlockStart, content_ok_iff]
  constructor
  · rintro ⟨-, isMore, isStarted, noReason, _, isIndex, read⟩
    obtain ⟨block, isBlock, started⟩ := bind_eq_ok.mp read
    obtain ⟨closed, rfl, valid, written⟩ := startContentBlock_ok_iff.mp started
    exact ⟨isMore, isStarted, noReason, closed, isIndex, block, (eventObject_ok_iff.mp isBlock).1,
      valid, written⟩
  · rintro ⟨isMore, isStarted, noReason, closed, isIndex, block, isBlock, valid, written⟩
    obtain ⟨_, isBlockType, -⟩ := validStart_type valid
    refine ⟨?_, isMore, isStarted, noReason, _, isIndex, ?_⟩
    · rw [isBlock]
      exact beq_eq_false_iff_ne.mpr (validStart_not_compaction valid)
    · refine bind_eq_ok.mpr ⟨block, eventObject_ok_iff.mpr ⟨isBlock, isObject_of_getStr isBlockType⟩, ?_⟩
      exact startContentBlock_ok_iff.mpr ⟨closed, rfl, valid, written⟩

theorem process_delta_iff (isType : event.getStr "type" = some "content_block_delta") :
    state.processSseEvent text (.json event) = .ok (after, control) ↔
      control = .more ∧ state.messageStarted ∧ state.terminalStopReason = none ∧
        ∃ index block delta filled, eventIndex event = some index ∧
          state.activeContentBlock = some (index, block) ∧ event.get "delta" = some delta ∧
          applyDelta block delta = .ok filled ∧
          after = { state with activeContentBlock := some (index, filled) } := by
  rw [processSseEvent_absorb_iff (by simp [isType]), isCompactionEvent_of_delta isType]
  have absorbs : state.absorb text event = state.contentBlockDelta event := by
    rw [absorb, isType]
    rfl
  rw [absorbs, contentBlockDelta, content_ok_iff]
  constructor
  · rintro ⟨-, isMore, isStarted, noReason, index, isIndex, read⟩
    obtain ⟨delta, isDelta, applied⟩ := bind_eq_ok.mp read
    obtain ⟨block, filled, isActive, isFilled, written⟩ := applyContentDelta_ok_iff.mp applied
    exact ⟨isMore, isStarted, noReason, index, block, delta, filled, isIndex, isActive,
      (eventObject_ok_iff.mp isDelta).1, isFilled, written⟩
  · rintro ⟨isMore, isStarted, noReason, index, block, delta, filled, isIndex, isActive, isDelta,
      isFilled, written⟩
    obtain ⟨_, isDeltaType, known⟩ := applyDelta_type isFilled
    refine ⟨?_, isMore, isStarted, noReason, index, isIndex, ?_⟩
    · rw [isDelta]
      show (delta.getStr "type" == some "compaction_delta") = false
      rw [isDeltaType, beq_eq_false_iff_ne]
      rintro ⟨⟩
      exact absurd known (by decide)
    · refine bind_eq_ok.mpr ⟨delta,
        eventObject_ok_iff.mpr ⟨isDelta, isObject_of_getStr isDeltaType⟩, ?_⟩
      exact applyContentDelta_ok_iff.mpr ⟨block, filled, isActive, isFilled, written⟩

theorem process_stop_iff (isType : event.getStr "type" = some "content_block_stop") :
    state.processSseEvent text (.json event) = .ok (after, control) ↔
      control = .more ∧ state.messageStarted ∧ state.terminalStopReason = none ∧
        ∃ index block final items replay, eventIndex event = some index ∧
          state.activeContentBlock = some (index, block) ∧
          finalizeStreamContentBlock text block = .ok final ∧
          pushAnthropicContentBlock text final state.items state.providerReplay =
            .ok (items, replay) ∧
          after = { state with
            activeContentBlock := none
            items := items
            providerReplay := replay
            nextContentBlockIndex := state.nextContentBlockIndex + 1 } := by
  rw [processSseEvent_absorb_iff (by simp [isType]), isCompactionEvent_of_stop isType (Or.inl rfl)]
  have absorbs : state.absorb text event = state.contentBlockStop text event := by
    rw [absorb, isType]
    rfl
  rw [absorbs, contentBlockStop, content_ok_iff]
  simp only [finishContentBlock_ok_iff, exists_and_left, true_and]

theorem process_messageStart_iff (isType : event.getStr "type" = some "message_start") :
    state.processSseEvent text (.json event) = .ok (after, control) ↔
      control = .more ∧ isCompactionEvent event = false ∧ state.messageStarted = false ∧
        after = { state with
          messageStarted := true
          usage := ((event.get "message").bind (·.get "usage")).bind anthropicUsage } := by
  rw [processSseEvent_absorb_iff (by simp [isType])]
  have absorbs : state.absorb text event = state.messageStart event := by
    rw [absorb, isType]
    rfl
  rw [absorbs, messageStart]
  cases state.messageStarted with
  | true => simp [refuse]
  | false =>
    constructor
    · rintro ⟨noCompaction, isMore, ran⟩
      exact ⟨isMore, noCompaction, rfl, (Except.ok.inj ran).symm⟩
    · rintro ⟨isMore, noCompaction, -, rfl⟩
      exact ⟨noCompaction, isMore, rfl⟩

theorem process_messageStop_iff (isType : event.getStr "type" = some "message_stop") :
    state.processSseEvent text (.json event) = .ok (after, control) ↔
      control = .stop ∧ state.messageStarted ∧ state.activeContentBlock = none ∧
        state.terminalStopReason.isSome ∧ after = { state with messageStopped := true } := by
  have allowed : rejectOrdinaryCompactionEvent event = .ok () := by
    rw [rejectOrdinaryCompactionEvent, isCompactionEvent_of_stop isType (Or.inr (Or.inl rfl))]
    rfl
  rw [processSseEvent, processEvent, allowed, messageStop]
  constructor
  · intro ran
    obtain ⟨_, -, chosen⟩ := bind_eq_ok.mp ran
    rw [if_pos isType] at chosen
    obtain ⟨stopped, isStop⟩ := map_control_eq_ok chosen
    obtain ⟨⟨⟩, closed, checked⟩ := bind_eq_ok.mp stopped
    obtain ⟨isStarted, isClosed⟩ := requireClosed_ok_iff.mp closed
    split at checked
    · cases checked
    · rename_i hasReason
      have isSome : state.terminalStopReason.isSome := by
        simpa [isNone_iff_eq_none, isSome_iff_ne_none] using hasReason
      exact ⟨isStop, isStarted, isClosed, isSome, (Except.ok.inj checked).symm⟩
  · rintro ⟨rfl, isStarted, isClosed, hasReason, rfl⟩
    have closed : state.requireClosed "message_stop" = .ok () :=
      requireClosed_ok_iff.mpr ⟨isStarted, isClosed⟩
    have notNone : state.terminalStopReason.isNone = false := by
      simpa [isSome_iff_ne_none] using hasReason
    simp [bind, Except.bind, isType, closed, notNone, Except.map]

theorem terminate_ok_iff {stopReason : String} :
    state.terminate text stopReason details = .ok after ↔
      (∀ existing, state.terminalStopReason = some existing → existing = stopReason) ∧
        ∃ merged reason, state.mergedStopDetails details = .ok merged ∧
          modelStopReason stopReason = .ok reason ∧
          after = { state with
            stopDetails := merged
            stopReason := reason
            terminalStopReason := state.terminalStopReason.or (some stopReason) } := by
  constructor
  · intro terminated
    have agreed := (terminate_eq_ok terminated).2.2.2.2
    obtain ⟨_, -, merges⟩ := bind_eq_ok.mp terminated
    obtain ⟨merged, isMerged, reasoned⟩ := bind_eq_ok.mp merges
    obtain ⟨reason, known, written⟩ := bind_eq_ok.mp reasoned
    exact ⟨agreed, merged, reason, isMerged, known, (Except.ok.inj written).symm⟩
  · rintro ⟨agreed, merged, reason, isMerged, known, rfl⟩
    have same : state.requireSameReason text stopReason = .ok () := by
      rw [requireSameReason]
      cases isTerminal : state.terminalStopReason with
      | none => rfl
      | some existing => simp [agreed existing isTerminal]
    exact bind_eq_ok.mpr ⟨(), same,
      bind_eq_ok.mpr ⟨merged, isMerged, bind_eq_ok.mpr ⟨reason, known, rfl⟩⟩⟩

theorem mergedStopDetails_ok_iff {category explanation : String} :
    (∃ merged, state.mergedStopDetails details = .ok merged ∧
        GivenAs category explanation merged) ↔
      GivenAs category explanation state.stopDetails ∧ GivenAs category explanation details := by
  cases details with
  | none => simp [mergedStopDetails, GivenAs]
  | some update =>
    show (∃ merged, (mergeAnthropicStopDetails state.stopDetails update).map some = .ok merged ∧
      GivenAs category explanation merged) ↔ _
    rw [← mergeAnthropicStopDetails_ok_iff]
    constructor
    · rintro ⟨merged, isMerged, given⟩
      cases merges : mergeAnthropicStopDetails state.stopDetails update with
      | error => simp [merges, Except.map] at isMerged
      | ok found =>
        rw [merges] at isMerged
        cases isMerged
        exact ⟨found, rfl, given⟩
    · rintro ⟨merged, isMerged, given⟩
      rw [isMerged]
      exact ⟨some merged, rfl, given⟩

/-- The usage once a delta of the message has reported its own. -/
def countedUsage (current : Option ProviderUsage) : Option ProviderUsage → Option ProviderUsage
  | some update => some (mergeAnthropicUsage current update)
  | none => current

/-- A delta of the message ends it if it gives a reason. -/
def reasoned (text : StreamText) (state : AnthropicStreamState) (reason : Option String)
    (details : Option ModelStopDetails) : ProviderResult AnthropicStreamState :=
  match reason with
  | some stopReason => state.terminate text stopReason details
  | none => .ok state

theorem process_messageDelta_ok (isType : event.getStr "type" = some "message_delta")
    (ran : state.processSseEvent text (.json event) = .ok (after, control)) :
    control = .more ∧ state.messageStarted ∧ state.activeContentBlock = none ∧
      ∃ reason details usage, MessageDelta text event reason details ∧
        reasoned text { state with usage := usage } reason details = .ok after := by
  obtain ⟨-, isMore, absorbed⟩ := (processSseEvent_absorb_iff (by simp [isType])).mp ran
  have absorbs : state.absorb text event = state.messageDelta text event := by
    rw [absorb, isType]
    rfl
  rw [absorbs, messageDelta] at absorbed
  obtain ⟨⟨⟩, isClosed, opened⟩ := bind_eq_ok.mp absorbed
  obtain ⟨delta, isDelta, updated⟩ := bind_eq_ok.mp opened
  obtain ⟨update, isUpdate, detailed⟩ := bind_eq_ok.mp updated
  obtain ⟨details, isDetails, chosen⟩ := bind_eq_ok.mp detailed
  obtain ⟨reason, isReason, ended⟩ := bind_eq_ok.mp chosen
  obtain ⟨isStarted, closed⟩ := requireClosed_ok_iff.mp isClosed
  obtain ⟨found, isObject⟩ := eventObject_ok_iff.mp isDelta
  refine ⟨isMore, isStarted, closed, reason, details, _, ?_, ended⟩
  constructor
  · exact isType
  · exact ⟨delta, found, isObject, isDetails, isReason⟩
  · exact ⟨update, isUpdate⟩

theorem process_messageDelta {reason : Option String}
    (legal : MessageDelta text event reason details) (notCompaction : reason ≠ some "compaction")
    (isStarted : state.messageStarted) (closed : state.activeContentBlock = none) :
    ∃ usage, ∀ after, reasoned text { state with usage := usage } reason details = .ok after →
      state.processSseEvent text (.json event) = .ok (after, .more) := by
  obtain ⟨delta, found, isObject, isDetails, isReason⟩ := legal.delta
  obtain ⟨update, isUpdate⟩ := legal.usage
  have goesOn : event.getStr "type" ≠ some "message_stop" := by simp [legal.type]
  have absorbs : state.absorb text event = state.messageDelta text event := by
    rw [absorb, legal.type]
    rfl
  refine ⟨countedUsage state.usage update, ?_⟩
  intro after ended
  rw [processSseEvent_absorb_iff goesOn, absorbs, messageDelta]
  refine ⟨?_, rfl, ?_⟩
  · rw [isCompactionEvent_of_messageDelta legal.type, legal.stopReason]
    simpa using notCompaction
  · refine bind_eq_ok.mpr ⟨(), requireClosed_ok_iff.mpr ⟨isStarted, closed⟩, ?_⟩
    refine bind_eq_ok.mpr ⟨delta, eventObject_ok_iff.mpr ⟨found, isObject⟩, ?_⟩
    refine bind_eq_ok.mpr ⟨update, isUpdate, ?_⟩
    refine bind_eq_ok.mpr ⟨details, isDetails, ?_⟩
    refine bind_eq_ok.mpr ⟨reason, isReason, ?_⟩
    cases update with
    | none | some => exact ended

theorem process_ignored (state : AnthropicStreamState) (ignored : isStreamEvent event = false) :
    state.processSseEvent text (.json event) = .ok (state, .more) := by
  have others : ∀ type ∈ streamEventTypes, event.getStr "type" ≠ some type := by
    simpa [isStreamEvent] using ignored
  rw [processSseEvent_absorb_iff (others "message_stop" (by decide))]
  refine ⟨?_, rfl, ?_⟩
  · rw [isCompactionEvent]
    split
    · exact absurd (by assumption) (others "message_start" (by decide))
    · exact absurd (by assumption) (others "content_block_start" (by decide))
    · exact absurd (by assumption) (others "content_block_delta" (by decide))
    · exact absurd (by assumption) (others "message_delta" (by decide))
    · rfl
  · rw [absorb]
    split
    · exact absurd (by assumption) (others "message_start" (by decide))
    · exact absurd (by assumption) (others "content_block_start" (by decide))
    · exact absurd (by assumption) (others "content_block_delta" (by decide))
    · exact absurd (by assumption) (others "content_block_stop" (by decide))
    · exact absurd (by assumption) (others "message_delta" (by decide))
    · exact absurd (by assumption) (others "error" (by decide))
    · rfl

theorem process_error (state : AnthropicStreamState) {outcome : AnthropicStreamState × SseControl}
    (isType : event.getStr "type" = some "error") :
    state.processSseEvent text (.json event) ≠ .ok outcome := by
  intro ran
  obtain ⟨-, -, absorbed⟩ := (processSseEvent_absorb_iff (by simp [isType])).mp ran
  rw [absorb, isType] at absorbed
  cases absorbed

end AnthropicStreamState

end PiRelay.AgentProvider
