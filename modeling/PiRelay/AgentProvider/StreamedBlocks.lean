import PiRelay.AgentProvider.StreamSteps

/-! The blocks that an Anthropic stream closes, read off its events, and what the parser keeps
of them: a replay record for each, and a call for each use of a tool. -/
namespace PiRelay.AgentProvider

open AgentVocab AnthropicStreamState List
open Library (Json bind_eq_ok)

structure BlockTrace where
  opened : Option Json := none
  closed : List Json := []

namespace BlockTrace

variable (text : StreamText)

def fill (trace : BlockTrace) (delta : Option Json) : BlockTrace :=
  match trace.opened, delta with
  | some block, some delta => { trace with opened := (applyDelta block delta).toOption }
  | _, _ => trace

def close (trace : BlockTrace) : BlockTrace :=
  match trace.opened.bind fun block => (finalizeStreamContentBlock text block).toOption with
  | some final => { opened := none, closed := trace.closed ++ [final] }
  | none => trace

def absorb (trace : BlockTrace) : SseEvent → BlockTrace
  | .json event =>
    match event.getStr "type" with
    | some "content_block_start" =>
      { trace with opened := (event.get "content_block").map normalizeStreamContentStart }
    | some "content_block_delta" => trace.fill (event.get "delta")
    | some "content_block_stop" => trace.close text
    | _ => trace
  | .malformedJson | .done => trace

end BlockTrace

def streamedBlocks (text : StreamText) (events : List SseEvent) : List Json :=
  ((eventsBefore "message_stop" events).foldl (BlockTrace.absorb text) {}).closed

def replayRecord (text : StreamText) (block : Json) : ProviderReplayItem :=
  newWithDisplay text .claude block (anthropicProviderReplayDisplay text block)

def isToolUse (block : Json) : Bool := block.getStr "type" == some "tool_use"

def blockToolCall (text : StreamText) (block : Json) : Option ToolCall :=
  if isToolUse block then (claudeToolCall text block).toOption else none

/-- A block has the type, id and name of one that was allowed to start. -/
def WellStarted (block : Json) : Prop :=
  ∃ start, validateAnthropicStreamContentStart start = .ok () ∧ SameHead start block

variable {block : Json} {text : StreamText}

theorem WellStarted.of_sameHead {filled : Json} (started : WellStarted block)
    (same : SameHead block filled) : WellStarted filled := by
  obtain ⟨start, valid, opened⟩ := started
  exact ⟨start, valid, opened.trans same⟩

theorem WellStarted.typed (started : WellStarted block) :
    ∃ blockType, block.getStr "type" = some blockType ∧ blockType ≠ "" ∧
      blockType ≠ "compaction" := by
  obtain ⟨_, valid, opened⟩ := started
  obtain ⟨blockType, isType, named⟩ := validStart_type valid
  refine ⟨blockType, ?_, named, ?_⟩
  · rw [opened "type" (by simp), isType]
  · rintro rfl
    exact validStart_not_compaction valid isType

theorem requiredNonemptyString_eq_ok {blockType field value : String}
    (read : requiredNonemptyString block blockType field = .ok value) :
    ∃ stored, block.getStr field = some stored := by
  obtain ⟨stored, required, -⟩ := bind_eq_ok.mp read
  rw [requiredString] at required
  split at required
  · exact ⟨_, by assumption⟩
  · cases required

theorem WellStarted.named (started : WellStarted block)
    (isTool : block.getStr "type" = some "tool_use") :
    (∃ id, block.getStr "id" = some id) ∧ ∃ name, block.getStr "name" = some name := by
  obtain ⟨start, valid, opened⟩ := started
  rw [opened "type" (by simp)] at isTool
  rw [opened "id" (by simp), opened "name" (by simp)]
  rw [validateAnthropicStreamContentStart,
    anthropicBlockType_eq_ok_iff.mpr (typed_of_getStr isTool (by decide))] at valid
  obtain ⟨_, same, checks⟩ := bind_eq_ok.mp valid
  cases same
  have checked : validateToolUseStart start "tool_use" = .ok () := checks
  obtain ⟨id, isId, named⟩ := bind_eq_ok.mp checked
  obtain ⟨name, isName, -⟩ := bind_eq_ok.mp named
  exact ⟨requiredNonemptyString_eq_ok isId, requiredNonemptyString_eq_ok isName⟩

theorem finalize_input {final : Json} (isTool : block.getStr "type" = some "tool_use")
    (finalized : finalizeStreamContentBlock text block = .ok final) :
    ∃ value, final.get "input" = some value := by
  obtain ⟨_, isFilled, checked⟩ := bind_eq_ok.mp finalized
  have parses : finalizeToolInput text block = parseToolInput text block := by
    rw [finalizeToolInput, isTool]
    rfl
  rw [parses, parseToolInput] at isFilled
  split at isFilled
  · obtain ⟨value, -, written⟩ := bind_eq_ok.mp isFilled
    cases written
    split at checked
    · cases checked
    · cases checked
      exact ⟨value, Json.get_set_self (isObject_of_getStr isTool) _ _⟩
  · cases isFilled

/-- A block that is closed: the parser can keep a use of a tool as a call. -/
structure ClosedBlock (text : StreamText) (block : Json) : Prop where
  started : WellStarted block
  call : isToolUse block = true → ∃ call, claudeToolCall text block = .ok call

theorem WellStarted.closed {final : Json} (started : WellStarted block)
    (finalized : finalizeStreamContentBlock text block = .ok final) : ClosedBlock text final := by
  have sameHead := sameHead_finalize finalized
  constructor
  · exact started.of_sameHead sameHead
  · intro isUse
    have isTool : final.getStr "type" = some "tool_use" := by simpa [isToolUse] using isUse
    obtain ⟨⟨id, isId⟩, name, isName⟩ := (started.of_sameHead sameHead).named isTool
    rw [sameHead "type" (by simp)] at isTool
    obtain ⟨input, isInput⟩ := finalize_input isTool finalized
    refine ⟨{ id := id, toolName := canonicalAnthropicToolName name,
              argsJson := text.toText input }, ?_⟩
    rw [claudeToolCall, isId, isName, isInput]
    rfl

theorem ClosedBlock.push (closed : ClosedBlock text block) (items : List AssistantItem)
    (replay : List ProviderReplayItem) :
    ∃ after, pushAnthropicContentBlock text block items replay =
        .ok (after, replay ++ [replayRecord text block]) ∧
      (AssistantMessage.mk after).toolCalls =
        (AssistantMessage.mk items).toolCalls ++ (blockToolCall text block).toList := by
  obtain ⟨blockType, isType, named, -⟩ := closed.started.typed
  have typed : anthropicBlockType block "Anthropic response content block" = .ok blockType :=
    anthropicBlockType_eq_ok_iff.mpr (typed_of_getStr isType named)
  by_cases isUse : isToolUse block
  · obtain ⟨call, isCall⟩ := closed.call isUse
    have isTool : blockType = "tool_use" := by simpa [isToolUse, isType] using isUse
    subst isTool
    refine ⟨items ++ [.toolCall call], ?_, ?_⟩
    · rw [pushAnthropicContentBlock, typed]
      rw [isCall]
      rfl
    · simp [blockToolCall, isUse, isCall, Except.toOption, AssistantMessage.toolCalls]
  · have noCall : blockToolCall text block = none := by simp [blockToolCall, isUse]
    have notTool : blockType ≠ "tool_use" := by simpa [isToolUse, isType] using isUse
    rw [noCall]
    by_cases isText : blockType = "text"
    · subst isText
      rw [pushAnthropicContentBlock, typed]
      cases block.getStr "text" with
      | none => exact ⟨items, by simp [bind, Except.bind, replayRecord], by simp⟩
      | some said =>
        exact ⟨pushTextItem items said, by simp [bind, Except.bind, replayRecord], by simp⟩
    · refine ⟨items, ?_, by simp⟩
      rw [pushAnthropicContentBlock, typed]
      simp [bind, Except.bind, replayRecord]

namespace AnthropicStreamState

structure HoldsBlocks (text : StreamText) (trace : BlockTrace) (state : AnthropicStreamState) :
    Prop where
  opened : trace.opened = state.activeContentBlock.map Prod.snd
  started : ∀ block ∈ trace.opened, WellStarted block
  closed : ∀ block ∈ trace.closed, ClosedBlock text block
  replay : state.providerReplay = trace.closed.map (replayRecord text)
  calls : (AssistantMessage.mk state.items).toolCalls =
    trace.closed.filterMap (blockToolCall text)
  items : trace.closed = [] → state.items = []
  stopReason : state.stopReason ≠ .compaction

theorem HoldsBlocks.start (text : StreamText) : HoldsBlocks text {} {} where
  opened := rfl
  started := by simp
  closed := by simp
  replay := rfl
  calls := rfl
  items := fun _ => rfl
  stopReason := by simp

variable {text : StreamText} {trace : BlockTrace} {state after final : AnthropicStreamState}
    {index : Nat} {block : Json}

section

variable (holds : HoldsBlocks text trace state)
include holds

theorem HoldsBlocks.of_same (sameOpen : after.activeContentBlock = state.activeContentBlock)
    (sameReplay : after.providerReplay = state.providerReplay)
    (sameItems : after.items = state.items) (reason : after.stopReason ≠ .compaction) :
    HoldsBlocks text trace after where
  opened := by rw [sameOpen, holds.opened]
  started := holds.started
  closed := holds.closed
  replay := by rw [sameReplay, holds.replay]
  calls := by rw [sameItems, holds.calls]
  items := by rw [sameItems]; exact holds.items
  stopReason := reason

theorem HoldsBlocks.open (valid : validateAnthropicStreamContentStart block = .ok ()) :
    HoldsBlocks text { trace with opened := some (normalizeStreamContentStart block) }
      { state with activeContentBlock := some (index, normalizeStreamContentStart block) } :=
  { holds with
    opened := rfl
    started := by
      rintro _ ⟨⟩
      exact ⟨block, valid, sameHead_normalize block⟩ }

section

variable (isActive : state.activeContentBlock = some (index, block))
include isActive

theorem HoldsBlocks.fill {delta filled : Json} (applied : applyDelta block delta = .ok filled) :
    HoldsBlocks text (trace.fill (some delta))
      { state with activeContentBlock := some (index, filled) } := by
  have isOpen : trace.opened = some block := by rw [holds.opened, isActive]; rfl
  have fills : trace.fill (some delta) = { trace with opened := some filled } := by
    simp [BlockTrace.fill, isOpen, applied, Except.toOption]
  rw [fills]
  constructor
  case opened => rfl
  case started =>
    rintro _ ⟨⟩
    exact (holds.started block isOpen).of_sameHead (sameHead_applyDelta applied)
  case closed => exact holds.closed
  case replay => exact holds.replay
  case calls => exact holds.calls
  case items => exact holds.items
  case stopReason => exact holds.stopReason

theorem HoldsBlocks.close {final : Json} {items : List AssistantItem}
    {replay : List ProviderReplayItem}
    (finalized : finalizeStreamContentBlock text block = .ok final)
    (pushed : pushAnthropicContentBlock text final state.items state.providerReplay =
      .ok (items, replay)) :
    HoldsBlocks text (trace.close text) { state with
        activeContentBlock := none
        items := items
        providerReplay := replay
        nextContentBlockIndex := state.nextContentBlockIndex + 1 } := by
  have isOpen : trace.opened = some block := by rw [holds.opened, isActive]; rfl
  have closes : trace.close text = { opened := none, closed := trace.closed ++ [final] } := by
    rw [BlockTrace.close, isOpen]
    simp [finalized, Except.toOption]
  have isClosed := (holds.started block isOpen).closed finalized
  obtain ⟨_, isPushed, added⟩ := isClosed.push state.items state.providerReplay
  rw [pushed] at isPushed
  cases isPushed
  rw [closes]
  constructor
  case opened => rfl
  case started => simp
  case closed =>
    intro block listed
    obtain earlier | rfl := mem_append.mp listed |>.imp_right mem_singleton.mp
    · exact holds.closed block earlier
    · exact isClosed
  case replay => simp [holds.replay]
  case calls =>
    rw [added, holds.calls, filterMap_append]
    cases called : blockToolCall text final with
    | none | some => simp [called]
  case items => simp
  case stopReason => exact holds.stopReason

end

end

theorem modelStopReason_ne_compaction {stopReason : String} {reason : ModelStopReason}
    (known : modelStopReason stopReason = .ok reason) : reason ≠ .compaction := by
  rintro rfl
  unfold modelStopReason at known
  split at known <;> cases known

theorem reasoned_stopReason {reason : Option String} {details : Option ModelStopDetails}
    (ran : reasoned text state reason details = .ok after) :
    after.stopReason = state.stopReason ∨ after.stopReason ≠ .compaction := by
  cases reason with
  | none =>
    cases ran
    exact Or.inl rfl
  | some =>
    obtain ⟨-, -, reason, -, known, rfl⟩ := terminate_ok_iff.mp ran
    exact Or.inr (modelStopReason_ne_compaction known)

theorem reasoned_keeps {reason : Option String} {details : Option ModelStopDetails}
    (ran : reasoned text state reason details = .ok after) :
    after.activeContentBlock = state.activeContentBlock ∧
      after.providerReplay = state.providerReplay ∧ after.items = state.items := by
  cases reason with
  | none =>
    cases ran
    exact ⟨rfl, rfl, rfl⟩
  | some =>
    obtain ⟨-, -, reason, -, -, rfl⟩ := terminate_ok_iff.mp ran
    exact ⟨rfl, rfl, rfl⟩

theorem absorb_other (trace : BlockTrace) {event : Json}
    (other : ∀ type ∈ ["content_block_start", "content_block_delta", "content_block_stop"],
      event.getStr "type" ≠ some type) : trace.absorb text (.json event) = trace := by
  show (match event.getStr "type" with
    | some "content_block_start" => _
    | some "content_block_delta" => _
    | some "content_block_stop" => _
    | _ => _) = _
  split
  · exact absurd (by assumption) (other "content_block_start" (by decide))
  · exact absurd (by assumption) (other "content_block_delta" (by decide))
  · exact absurd (by assumption) (other "content_block_stop" (by decide))
  · rfl

theorem streamEvent_cases {event : Json} (isEvent : isStreamEvent event) :
    ∃ type ∈ streamEventTypes, event.getStr "type" = some type := by
  simpa [isStreamEvent] using isEvent

/-- The state holds the blocks of the events absorbed so far. -/
theorem HoldsBlocks.step {event : SseEvent} (holds : HoldsBlocks text trace state)
    (ran : state.processSseEvent text event = .ok (after, .more)) :
    HoldsBlocks text (trace.absorb text event) after := by
  cases event with
  | malformedJson => cases ran
  | done =>
    cases ran
    exact holds
  | json event =>
    cases isEvent : isStreamEvent event with
    | false =>
      rw [process_ignored state isEvent] at ran
      cases ran
      have others : ∀ type ∈ streamEventTypes, event.getStr "type" ≠ some type := by
        simpa [isStreamEvent] using isEvent
      rw [absorb_other trace fun type listed => others type (by revert type; decide)]
      exact holds
    | true =>
      obtain ⟨type, listed, isType⟩ := streamEvent_cases isEvent
      simp only [streamEventTypes, mem_cons, not_mem_nil, or_false] at listed
      obtain rfl | rfl | rfl | rfl | rfl | rfl | rfl := listed
      · obtain ⟨-, -, -, rfl⟩ := (process_messageStart_iff isType).mp ran
        rw [absorb_other trace (by simp [isType])]
        exact holds.of_same rfl rfl rfl holds.stopReason
      · obtain ⟨-, -, -, -, -, block, isBlock, valid, rfl⟩ := (process_start_iff isType).mp ran
        have opens : trace.absorb text (.json event) =
            { trace with opened := some (normalizeStreamContentStart block) } := by
          rw [BlockTrace.absorb, isType, isBlock]
          rfl
        rw [opens]
        exact holds.open valid
      · obtain ⟨-, -, -, index, block, delta, filled, -, isActive, isDelta, applied, rfl⟩ :=
          (process_delta_iff isType).mp ran
        have fills : trace.absorb text (.json event) = trace.fill (some delta) := by
          rw [BlockTrace.absorb, isType, isDelta]
          rfl
        rw [fills]
        exact holds.fill isActive applied
      · obtain ⟨-, -, -, index, block, final, items, replay, -, isActive, finalized, pushed, rfl⟩ :=
          (process_stop_iff isType).mp ran
        have closes : trace.absorb text (.json event) = trace.close text := by
          rw [BlockTrace.absorb, isType]
          rfl
        rw [closes]
        exact holds.close isActive finalized pushed
      · obtain ⟨-, -, -, _, _, _, -, ended⟩ := process_messageDelta_ok isType ran
        obtain ⟨sameOpen, sameReplay, sameItems⟩ := reasoned_keeps ended
        rw [absorb_other trace (by simp [isType])]
        refine holds.of_same sameOpen sameReplay sameItems ?_
        obtain same | apart := reasoned_stopReason ended
        · rw [same]
          exact holds.stopReason
        · exact apart
      · obtain ⟨stops, -⟩ := (process_messageStop_iff isType).mp ran
        cases stops
      · exact absurd ran (process_error state isType)

/-- A state at the end of its message: what a response is made of. -/
structure Ended (text : StreamText) (blocks : List Json) (final : AnthropicStreamState) : Prop where
  started : final.messageStarted = true
  stopped : final.messageStopped = true
  reason : final.terminalStopReason.isSome = true
  blocks : HoldsBlocks text { closed := blocks } final

theorem consume_ended {events : List SseEvent}
    (ran : Library.consume (processSseEvent text) {} events = .ok final)
    (stopped : final.messageStopped) : Ended text (streamedBlocks text events) final := by
  obtain ⟨-, streams, -⟩ | ⟨last, prior, isLast, ⟨-, holds⟩, stops⟩ :=
    (endsAt_message_stop text).consume_rule
      (motive := fun seen state =>
        Streams seen state ∧ HoldsBlocks text (seen.foldl (BlockTrace.absorb text) {}) state)
      (fun ⟨streams, holds⟩ step => ⟨streams.step step, by simpa using holds.step step⟩)
      ⟨Streams.start, HoldsBlocks.start text⟩ ran
  · rw [streams.notStopped] at stopped
    cases stopped
  · have isType := find?_some isLast
    cases last with
    | malformedJson | done => cases stops
    | json event =>
      have isStop : event.getStr "type" = some "message_stop" := by
        simpa [SseEvent.hasType, SseEvent.eventType] using isType
      obtain ⟨-, isStarted, closed, hasReason, rfl⟩ := (process_messageStop_iff isStop).mp stops
      refine ⟨isStarted, rfl, hasReason, ?_⟩
      rw [nil_append] at holds
      constructor
      case opened => rw [closed]; rfl
      case started => simp
      case closed => exact holds.closed
      case replay => exact holds.replay
      case calls => exact holds.calls
      case items => exact holds.items
      case stopReason => exact holds.stopReason

theorem Ended.noCompaction {blocks : List Json} (ended : Ended text blocks final)
    (reads : ∀ block ∈ blocks, text.fromText (text.toText block) = some block) :
    final.providerReplay.any (fun item => rawType text item == some "compaction") = false := by
  rw [ended.blocks.replay, any_map, any_eq_false]
  intro block listed
  obtain ⟨blockType, isType, -, notCompaction⟩ := (ended.blocks.closed block listed).started.typed
  have read : rawType text (replayRecord text block) = some blockType := by
    show (text.fromText (text.toText block)).bind (·.getStr "type") = some blockType
    rw [reads block listed]
    exact isType
  simp [read, notCompaction]

theorem finish_eq_ok {response : ModelResponse} (finished : final.finish text = .ok response) :
    final.messageStopped ∧
      response.assistant.items = final.withoutRefused.items ∧
      response.providerReplay = final.withoutRefused.providerReplay ∧
      response.stopReason = final.stopReason := by
  rw [finish] at finished
  split at finished
  · cases finished
  split at finished
  · cases finished
  rename_i isStopped
  split at finished
  · cases finished
  dsimp only at finished
  split at finished
  · cases finished
  cases finished
  refine ⟨by simpa using isStopped, rfl, rfl, ?_⟩
  rw [withoutRefused]
  split <;> rfl

theorem Ended.finish {blocks : List Json} (ended : Ended text blocks final)
    (reads : ∀ block ∈ blocks, text.fromText (text.toText block) = some block) :
    ∃ response, final.finish text = .ok response := by
  have noCompaction : ¬ (final.withoutRefused.stopReason = .compaction ∨
      final.withoutRefused.providerReplay.any
        (fun item => rawType text item == some "compaction")) := by
    rw [withoutRefused]
    split
    · simpa using ended.blocks.stopReason
    · rw [ended.noCompaction reads]
      simpa using ended.blocks.stopReason
  have notNone : final.terminalStopReason.isNone = false := by
    simpa [Option.isSome_iff_ne_none] using ended.reason
  rw [AnthropicStreamState.finish, ended.started, ended.stopped, notNone]
  rw [if_neg (by simp), if_neg (by simp), if_neg (by simp), if_neg noCompaction]
  exact ⟨_, rfl⟩

end AnthropicStreamState

theorem parseAnthropicStream_ok_iff {events : List SseEvent}
    (reads : ∀ block ∈ streamedBlocks text events,
      text.fromText (text.toText block) = some block) :
    (∃ response, parseAnthropicStream text events = .ok response) ↔
      ∃ final, Library.consume (AnthropicStreamState.processSseEvent text) {} events = .ok final ∧
        final.messageStopped := by
  constructor
  · rintro ⟨response, accepted⟩
    obtain ⟨final, ran, finished⟩ := bind_eq_ok.mp accepted
    exact ⟨final, ran, (finish_eq_ok finished).1⟩
  · rintro ⟨final, ran, stopped⟩
    obtain ⟨response, finished⟩ := (consume_ended ran stopped).finish reads
    exact ⟨response, bind_eq_ok.mpr ⟨final, ran, finished⟩⟩

/-- What a response that was not refused keeps of the closed blocks. -/
structure KeepsBlocks (text : StreamText) (blocks : List Json) (response : ModelResponse) : Prop where
  closed : ∀ block ∈ blocks, ClosedBlock text block
  replay : response.providerReplay = blocks.map (replayRecord text)
  calls : response.assistant.toolCalls = blocks.filterMap (blockToolCall text)
  items : blocks = [] → response.assistant.items = []

theorem parseAnthropicStream_keeps {events : List SseEvent} {response : ModelResponse}
    (accepted : parseAnthropicStream text events = .ok response)
    (kept : response.stopReason ≠ .refusal) :
    KeepsBlocks text (streamedBlocks text events) response := by
  obtain ⟨final, ran, finished⟩ := bind_eq_ok.mp accepted
  obtain ⟨stopped, sameItems, sameReplay, sameReason⟩ := finish_eq_ok finished
  have holds := (consume_ended ran stopped).blocks
  rw [sameReason] at kept
  have unrefused : final.withoutRefused = final := by
    rw [withoutRefused, if_neg kept]
  rw [unrefused] at sameItems sameReplay
  constructor
  · exact holds.closed
  · rw [sameReplay, holds.replay]
  · rw [← holds.calls, AssistantMessage.toolCalls, sameItems, AssistantMessage.toolCalls]
  · intro noBlocks
    rw [sameItems]
    exact holds.items noBlocks

end PiRelay.AgentProvider
