import PiRelay.AgentProvider.StreamedBlocks

/-! The grammar of the messages that are accepted from an Anthropic stream. A message starts,
streams its blocks one after another, gives its stop reason once they are closed, and stops;
a parser in one of these phases goes on exactly with what the grammar has next. -/
namespace PiRelay.AgentProvider

open AgentVocab List
open Library (Json bind_eq_ok)

structure BlockEvents where
  start : Json
  deltas : List Json
  stop : Json

def BlockEvents.events (block : BlockEvents) : List Json :=
  block.start :: (block.deltas ++ [block.stop])

def eventDelta (event : Json) : Json := (event.get "delta").getD .null

structure IsBlockEvent (type : String) (index : Nat) (event : Json) : Prop where
  type : event.getStr "type" = some type
  index : eventIndex event = some index

structure BlockEvents.Legal (text : StreamText) (index : Nat) (block : BlockEvents) : Prop where
  start : IsBlockEvent "content_block_start" index block.start
  deltas : ∀ event ∈ block.deltas, IsBlockEvent "content_block_delta" index event
  stop : IsBlockEvent "content_block_stop" index block.stop
  content : ∃ started blockType, block.start.get "content_block" = some started ∧
    validateAnthropicStreamContentStart started = .ok () ∧
    started.getStr "type" = some blockType ∧
    LegalDeltas text blockType (block.deltas.map eventDelta)

/-- A delta of the message that repeats the stop reason or gives none. -/
def Repeats (text : StreamText) (reason category explanation : String) (event : Json) : Prop :=
  ∃ repeated details, MessageDelta text event repeated details ∧
    (∀ again, repeated = some again → again = reason) ∧ GivenAs category explanation details

/-- What may follow the first stop reason: deltas that repeat it or give none, and the stop.
What comes after the stop is not part of the message. -/
inductive ClosingEvents (text : StreamText) (reason category explanation : String) :
    List Json → Prop where
  | stop {event : Json} (rest : List Json) (isType : event.getStr "type" = some "message_stop") :
      ClosingEvents text reason category explanation (event :: rest)
  | delta {event : Json} {rest : List Json}
      (repeats : Repeats text reason category explanation event)
      (later : ClosingEvents text reason category explanation rest) :
      ClosingEvents text reason category explanation (event :: rest)

/-- Blocks that are numbered one after another, deltas of the message between them, and the
stop reason. -/
inductive ContentEvents (text : StreamText) (category explanation : String) :
    Nat → List Json → Prop where
  | block {index : Nat} {rest : List Json} (block : BlockEvents) (legal : block.Legal text index)
      (later : ContentEvents text category explanation (index + 1) rest) :
      ContentEvents text category explanation index (block.events ++ rest)
  | delta {index : Nat} {event : Json} {rest : List Json} {details : Option ModelStopDetails}
      (legal : MessageDelta text event none details)
      (later : ContentEvents text category explanation index rest) :
      ContentEvents text category explanation index (event :: rest)
  | reason {index : Nat} {event : Json} {rest : List Json} {reason : String}
      {details : Option ModelStopDetails} (legal : MessageDelta text event (some reason) details)
      (listed : reason ∈ terminalReasons) (agrees : GivenAs category explanation details)
      (closing : ClosingEvents text reason category explanation rest) :
      ContentEvents text category explanation index (event :: rest)

/-- The events of a message. All of its stop details are given as one category and one
explanation. -/
inductive MessageEvents (text : StreamText) : List Json → Prop where
  | start {event : Json} {rest : List Json} {category explanation : String}
      (isType : event.getStr "type" = some "message_start")
      (noCompaction : isCompactionEvent event = false)
      (content : ContentEvents text category explanation 0 rest) :
      MessageEvents text (event :: rest)

namespace AnthropicStreamState

/-- The stream goes on to the end of the message, with its details given as they are said. -/
def Completes (text : StreamText) (category explanation : String) (state : AnthropicStreamState)
    (events : List Json) : Prop :=
  ∃ final, Library.consume (processSseEvent text) state (events.map .json) = .ok final ∧
    final.messageStopped = true ∧ GivenAs category explanation final.stopDetails

variable {text : StreamText} {category explanation : String}
variable {state after : AnthropicStreamState} {event block filled : Json} {rest events : List Json}
    {reason : String} {details : Option ModelStopDetails} {index : Nat}

theorem not_completes_nil (running : state.messageStopped = false) :
    ¬ Completes text category explanation state [] := by
  rintro ⟨_, ran, stopped, -⟩
  cases ran
  rw [running] at stopped
  cases stopped

theorem completes_cons_iff (goesOn : event.getStr "type" ≠ some "message_stop") :
    Completes text category explanation state (event :: rest) ↔
      ∃ after, state.processSseEvent text (.json event) = .ok (after, .more) ∧
        Completes text category explanation after rest := by
  constructor
  · rintro ⟨final, ran, ended⟩
    obtain stops | ⟨after, went, runsOn⟩ := Library.consume_cons_eq_ok ran
    · obtain ⟨-, stop, -⟩ := (processSseEvent_absorb_iff goesOn).mp stops
      cases stop
    · exact ⟨after, went, final, runsOn, ended⟩
  · rintro ⟨after, went, final, runsOn, ended⟩
    refine ⟨final, ?_, ended⟩
    rw [map_cons, Library.consume, went]
    exact runsOn

theorem completes_stop_iff (isStop : event.getStr "type" = some "message_stop") :
    Completes text category explanation state (event :: rest) ↔
      state.messageStarted ∧ state.activeContentBlock = none ∧
        state.terminalStopReason.isSome ∧ GivenAs category explanation state.stopDetails := by
  constructor
  · rintro ⟨_, ran, -, given⟩
    obtain stops | ⟨_, went, -⟩ := Library.consume_cons_eq_ok ran
    · obtain ⟨-, isStarted, closed, hasReason, rfl⟩ := (process_messageStop_iff isStop).mp stops
      exact ⟨isStarted, closed, hasReason, given⟩
    · obtain ⟨more, -⟩ := (process_messageStop_iff isStop).mp went
      cases more
  · rintro ⟨isStarted, closed, hasReason, given⟩
    refine ⟨{ state with messageStopped := true }, ?_, rfl, given⟩
    rw [map_cons, Library.consume,
      (process_messageStop_iff isStop).mpr ⟨rfl, isStarted, closed, hasReason, rfl⟩]

/-- No block is open, and the stop reason is still to come. -/
structure Between (index : Nat) (state : AnthropicStreamState) : Prop where
  started : state.messageStarted = true
  running : state.messageStopped = false
  noReason : state.terminalStopReason = none
  closed : state.activeContentBlock = none
  index : state.nextContentBlockIndex = index
  noDetails : state.stopDetails = none

structure Filling (index : Nat) (block : Json) (state : AnthropicStreamState) : Prop where
  started : state.messageStarted = true
  running : state.messageStopped = false
  noReason : state.terminalStopReason = none
  active : state.activeContentBlock = some (index, block)
  index : state.nextContentBlockIndex = index
  noDetails : state.stopDetails = none
  wellStarted : WellStarted block

/-- The blocks are closed, and the stop reason has been given. -/
structure Closing (reason : String) (state : AnthropicStreamState) : Prop where
  started : state.messageStarted = true
  running : state.messageStopped = false
  reason : state.terminalStopReason = some reason
  closed : state.activeContentBlock = none

theorem terminate_completes_iff
    (agreed : ∀ existing, state.terminalStopReason = some existing → existing = reason) :
    (∃ after, state.terminate text reason details = .ok after ∧
        GivenAs category explanation after.stopDetails) ↔
      reason ∈ terminalReasons ∧ GivenAs category explanation state.stopDetails ∧
        GivenAs category explanation details := by
  rw [← mergedStopDetails_ok_iff, ← modelStopReason_ok_iff]
  constructor
  · rintro ⟨after, terminated, given⟩
    obtain ⟨-, merged, kind, isMerged, known, rfl⟩ := terminate_ok_iff.mp terminated
    exact ⟨⟨kind, known⟩, merged, isMerged, given⟩
  · rintro ⟨⟨kind, known⟩, merged, isMerged, given⟩
    exact ⟨_, terminate_ok_iff.mpr ⟨agreed, merged, kind, isMerged, known, rfl⟩, given⟩

theorem Closing.of_terminate (started : state.messageStarted)
    (running : state.messageStopped = false) (closed : state.activeContentBlock = none)
    (terminated : state.terminate text reason details = .ok after) : Closing reason after := by
  obtain ⟨-, -, -, terminal, -⟩ := terminate_eq_ok terminated
  obtain ⟨-, _, _, -, -, rfl⟩ := terminate_ok_iff.mp terminated
  constructor
  · exact started
  · exact running
  · exact terminal
  · exact closed

theorem details_of_noReason (legal : MessageDelta text event none details) : details = none := by
  obtain ⟨_, -, -, -, read⟩ := legal.delta
  cases details with
  | none => rfl
  | some =>
    rw [deltaStopReason] at read
    split at read
    · cases read
    · cases read
    · split at read <;> cases read
    · cases read

theorem Closing.counted (closing : Closing reason state) (usage : Option ProviderUsage) :
    Closing reason { state with usage := usage } :=
  ⟨closing.started, closing.running, closing.reason, closing.closed⟩

theorem Closing.repeats (closing : Closing reason state) (isEvent : isStreamEvent event)
    (ran : state.processSseEvent text (.json event) = .ok (after, .more)) :
    Closing reason after ∧ (GivenAs category explanation after.stopDetails →
      GivenAs category explanation state.stopDetails ∧
        Repeats text reason category explanation event) := by
  obtain ⟨_, known, isType⟩ := streamEvent_cases isEvent
  simp only [streamEventTypes, mem_cons, not_mem_nil, or_false] at known
  obtain rfl | rfl | rfl | rfl | rfl | rfl | rfl := known
  · obtain ⟨-, -, notStarted, -⟩ := (process_messageStart_iff isType).mp ran
    rw [closing.started] at notStarted
    cases notStarted
  · obtain ⟨-, -, noReason, -⟩ := (process_start_iff isType).mp ran
    rw [closing.reason] at noReason
    cases noReason
  · obtain ⟨-, -, noReason, -⟩ := (process_delta_iff isType).mp ran
    rw [closing.reason] at noReason
    cases noReason
  · obtain ⟨-, -, noReason, -⟩ := (process_stop_iff isType).mp ran
    rw [closing.reason] at noReason
    cases noReason
  · obtain ⟨-, -, -, repeated, details, usage, legal, ended⟩ := process_messageDelta_ok isType ran
    have counted := closing.counted usage
    cases repeated with
    | none =>
      cases ended
      obtain rfl := details_of_noReason legal
      exact ⟨counted, fun given => ⟨given, none, none, legal, by simp, by simp [GivenAs]⟩⟩
    | some =>
      obtain ⟨agreed, -⟩ := terminate_ok_iff.mp ended
      obtain rfl := agreed reason closing.reason
      refine ⟨.of_terminate counted.started counted.running counted.closed ended, ?_⟩
      intro given
      obtain ⟨-, before, now⟩ := (terminate_completes_iff agreed).mp ⟨after, ended, given⟩
      exact ⟨before, some reason, details, legal, by simp, now⟩
  · obtain ⟨stops, -⟩ := (process_messageStop_iff isType).mp ran
    cases stops
  · exact absurd ran (process_error state isType)

theorem Closing.process (listed : reason ∈ terminalReasons) (closing : Closing reason state)
    (given : GivenAs category explanation state.stopDetails)
    (repeats : Repeats text reason category explanation event) :
    ∃ after, state.processSseEvent text (.json event) = .ok (after, .more) ∧
      Closing reason after ∧ GivenAs category explanation after.stopDetails := by
  obtain ⟨repeated, _, legal, same, agrees⟩ := repeats
  have known : repeated ≠ some "compaction" := by
    rintro rfl
    rw [← same "compaction" rfl] at listed
    exact absurd listed (by decide)
  obtain ⟨usage, takes⟩ := process_messageDelta legal known closing.started closing.closed
  have counted := closing.counted usage
  cases repeated with
  | none => exact ⟨_, takes _ rfl, counted, given⟩
  | some again =>
    obtain rfl := same again rfl
    have agreed : ∀ existing, { state with usage := usage }.terminalStopReason = some existing →
        existing = again := by
      intro existing isExisting
      exact Option.some.inj (isExisting.symm.trans counted.reason)
    obtain ⟨after, ended, givenAfter⟩ :=
      (terminate_completes_iff agreed).mpr ⟨listed, given, agrees⟩
    refine ⟨after, takes after ended, ?_, givenAfter⟩
    exact .of_terminate counted.started counted.running counted.closed ended

theorem Closing.completes_iff (listed : reason ∈ terminalReasons) (closing : Closing reason state)
    (areEvents : ∀ event ∈ events, isStreamEvent event) :
    Completes text category explanation state events ↔
      GivenAs category explanation state.stopDetails ∧
        ClosingEvents text reason category explanation events := by
  induction events generalizing state with
  | nil =>
    constructor
    · intro completes
      exact absurd completes (not_completes_nil closing.running)
    · rintro ⟨-, ended⟩
      cases ended
  | cons event rest ih =>
    obtain ⟨isEvent, later⟩ := forall_mem_cons.mp areEvents
    by_cases isStop : event.getStr "type" = some "message_stop"
    · rw [completes_stop_iff isStop]
      constructor
      · rintro ⟨-, -, -, given⟩
        exact ⟨given, .stop rest isStop⟩
      · rintro ⟨given, -⟩
        exact ⟨closing.started, closing.closed, by simp [closing.reason], given⟩
    · rw [completes_cons_iff isStop]
      constructor
      · rintro ⟨after, ran, goesOn⟩
        obtain ⟨isClosing, repeats⟩ := closing.repeats isEvent ran
        obtain ⟨given, closes⟩ := (ih isClosing later).mp goesOn
        obtain ⟨before, isRepeated⟩ := repeats given
        exact ⟨before, .delta isRepeated closes⟩
      · rintro ⟨given, ended⟩
        cases ended with
        | stop _ stops => exact absurd stops isStop
        | delta repeats closes =>
          obtain ⟨after, ran, isClosing, givenAfter⟩ := closing.process listed given repeats
          exact ⟨after, ran, (ih isClosing later).mpr ⟨givenAfter, closes⟩⟩

theorem eventDelta_eq {delta : Json} (isDelta : event.get "delta" = some delta) :
    eventDelta event = delta := by
  rw [eventDelta, isDelta]
  rfl

theorem get_delta_of_applied (applied : applyDelta block (eventDelta event) = .ok filled) :
    event.get "delta" = some (eventDelta event) := by
  obtain ⟨_, isType, -⟩ := applyDelta_type applied
  cases isDelta : event.get "delta" with
  | some => rw [eventDelta_eq isDelta]
  | none =>
    rw [eventDelta, isDelta] at isType
    cases isType

section

variable (filling : Filling index block state)
include filling

theorem Filling.next (isEvent : isStreamEvent event)
    (ran : state.processSseEvent text (.json event) = .ok (after, .more)) :
    (IsBlockEvent "content_block_delta" index event ∧
        ∃ filled, applyDelta block (eventDelta event) = .ok filled ∧ Filling index filled after) ∨
      (IsBlockEvent "content_block_stop" index event ∧
        (∃ final, finalizeStreamContentBlock text block = .ok final) ∧
        Between (index + 1) after) := by
  obtain ⟨_, known, isType⟩ := streamEvent_cases isEvent
  simp only [streamEventTypes, mem_cons, not_mem_nil, or_false] at known
  obtain rfl | rfl | rfl | rfl | rfl | rfl | rfl := known
  · obtain ⟨-, -, notStarted, -⟩ := (process_messageStart_iff isType).mp ran
    rw [filling.started] at notStarted
    cases notStarted
  · obtain ⟨-, -, -, closed, -⟩ := (process_start_iff isType).mp ran
    rw [filling.active] at closed
    cases closed
  · obtain ⟨-, -, -, found, active, delta, filled, isIndex, isActive, isDelta, applied, rfl⟩ :=
      (process_delta_iff isType).mp ran
    cases filling.active.symm.trans isActive
    left
    refine ⟨⟨isType, isIndex⟩, filled, ?_, ?_⟩
    · rw [eventDelta_eq isDelta]
      exact applied
    · exact ⟨filling.started, filling.running, filling.noReason, rfl, filling.index,
        filling.noDetails, filling.wellStarted.of_sameHead (sameHead_applyDelta applied)⟩
  · obtain ⟨-, -, -, found, active, final, items, replay, isIndex, isActive, finalized, -, rfl⟩ :=
      (process_stop_iff isType).mp ran
    cases filling.active.symm.trans isActive
    right
    refine ⟨⟨isType, isIndex⟩, ⟨final, finalized⟩, ?_⟩
    exact ⟨filling.started, filling.running, filling.noReason, rfl,
      congrArg (· + 1) filling.index, filling.noDetails⟩
  · obtain ⟨-, -, closed, -⟩ := process_messageDelta_ok isType ran
    rw [filling.active] at closed
    cases closed
  · obtain ⟨stops, -⟩ := (process_messageStop_iff isType).mp ran
    cases stops
  · exact absurd ran (process_error state isType)

theorem Filling.fill (isDelta : IsBlockEvent "content_block_delta" index event)
    (applied : applyDelta block (eventDelta event) = .ok filled) :
    ∃ after, state.processSseEvent text (.json event) = .ok (after, .more) ∧
      Filling index filled after := by
  refine ⟨{ state with activeContentBlock := some (index, filled) }, ?_, ?_⟩
  · exact (process_delta_iff isDelta.type).mpr ⟨rfl, filling.started, filling.noReason, index, block,
      eventDelta event, filled, isDelta.index, filling.active, get_delta_of_applied applied, applied,
      rfl⟩
  · exact ⟨filling.started, filling.running, filling.noReason, rfl, filling.index,
      filling.noDetails, filling.wellStarted.of_sameHead (sameHead_applyDelta applied)⟩

theorem Filling.stop {final : Json} (isStop : IsBlockEvent "content_block_stop" index event)
    (finalized : finalizeStreamContentBlock text block = .ok final) :
    ∃ after, state.processSseEvent text (.json event) = .ok (after, .more) ∧
      Between (index + 1) after := by
  obtain ⟨items, pushed, -⟩ :=
    (filling.wellStarted.closed finalized).push state.items state.providerReplay
  exact ⟨_, (process_stop_iff isStop.type).mpr ⟨rfl, filling.started, filling.noReason, index, block,
      final, items, _, isStop.index, filling.active, finalized, pushed, rfl⟩,
    filling.started, filling.running, filling.noReason, rfl, congrArg (· + 1) filling.index,
    filling.noDetails⟩

theorem Filling.of_completes (areEvents : ∀ event ∈ events, isStreamEvent event)
    (completes : Completes text category explanation state events) :
    ∃ deltas stop rest after, events = deltas ++ stop :: rest ∧
      (∀ event ∈ deltas, IsBlockEvent "content_block_delta" index event) ∧
      IsBlockEvent "content_block_stop" index stop ∧
      (∃ filled, (deltas.map eventDelta).foldlM applyDelta block = .ok filled ∧
        ∃ final, finalizeStreamContentBlock text filled = .ok final) ∧
      Between (index + 1) after ∧ Completes text category explanation after rest := by
  induction events generalizing state block with
  | nil => exact absurd completes (not_completes_nil filling.running)
  | cons event rest ih =>
    obtain ⟨isEvent, later⟩ := forall_mem_cons.mp areEvents
    by_cases isStop : event.getStr "type" = some "message_stop"
    · obtain ⟨-, closed, -⟩ := (completes_stop_iff isStop).mp completes
      rw [filling.active] at closed
      cases closed
    · obtain ⟨after, ran, goesOn⟩ := (completes_cons_iff isStop).mp completes
      obtain ⟨isDelta, filled, applied, isFilling⟩ | ⟨isStopped, finalized, between⟩ :=
        filling.next isEvent ran
      · obtain ⟨deltas, stop, others, closed, rfl, areDeltas, isStopped, fills, between, closes⟩ :=
          ih isFilling later goesOn
        refine ⟨event :: deltas, stop, others, closed, rfl, ?_, isStopped, ?_, between, closes⟩
        · exact forall_mem_cons.mpr ⟨isDelta, areDeltas⟩
        · exact foldlM_applyDelta_cons applied fills
      · exact ⟨[], event, rest, after, rfl, by simp, isStopped, ⟨block, rfl, finalized⟩, between,
          goesOn⟩

theorem Filling.completes {final stop : Json} {deltas : List Json}
    (areDeltas : ∀ event ∈ deltas, IsBlockEvent "content_block_delta" index event)
    (isStop : IsBlockEvent "content_block_stop" index stop)
    (fills : (deltas.map eventDelta).foldlM applyDelta block = .ok filled)
    (finalized : finalizeStreamContentBlock text filled = .ok final)
    (later : ∀ after, Between (index + 1) after → Completes text category explanation after rest) :
    Completes text category explanation state (deltas ++ stop :: rest) := by
  induction deltas generalizing state block with
  | nil =>
    cases fills
    obtain ⟨after, ran, between⟩ := filling.stop isStop finalized
    exact (completes_cons_iff (by simp [isStop.type])).mpr ⟨after, ran, later after between⟩
  | cons _ _ ih =>
    obtain ⟨isDelta, others⟩ := forall_mem_cons.mp areDeltas
    obtain ⟨_, applied, goesOn⟩ := bind_eq_ok.mp fills
    obtain ⟨after, ran, isFilling⟩ := filling.fill isDelta applied
    exact (completes_cons_iff (by simp [isDelta.type])).mpr ⟨after, ran, ih isFilling others goesOn⟩

end

theorem Between.counted (between : Between index state) (usage : Option ProviderUsage) :
    Between index { state with usage := usage } :=
  ⟨between.started, between.running, between.noReason, between.closed, between.index,
    between.noDetails⟩

/-- The start of a block under an index. -/
def StartsBlock (index : Nat) (event block : Json) : Prop :=
  IsBlockEvent "content_block_start" index event ∧ event.get "content_block" = some block ∧
    validateAnthropicStreamContentStart block = .ok ()

/-- What an event between two blocks may be. -/
inductive Advances (text : StreamText) (category explanation : String) (index : Nat) (event : Json)
    (after : AnthropicStreamState) : Prop where
  | block (block : Json) (starts : StartsBlock index event block)
      (filling : Filling index (normalizeStreamContentStart block) after)
  | delta (details : Option ModelStopDetails) (legal : MessageDelta text event none details)
      (between : Between index after)
  | reason (reason : String) (details : Option ModelStopDetails)
      (legal : MessageDelta text event (some reason) details) (listed : reason ∈ terminalReasons)
      (closing : Closing reason after)
      (given : GivenAs category explanation after.stopDetails →
        GivenAs category explanation details)

section

variable (between : Between index state)
include between

theorem Between.next (isEvent : isStreamEvent event)
    (ran : state.processSseEvent text (.json event) = .ok (after, .more)) :
    Advances text category explanation index event after := by
  obtain ⟨_, known, isType⟩ := streamEvent_cases isEvent
  simp only [streamEventTypes, mem_cons, not_mem_nil, or_false] at known
  obtain rfl | rfl | rfl | rfl | rfl | rfl | rfl := known
  · obtain ⟨-, -, notStarted, -⟩ := (process_messageStart_iff isType).mp ran
    rw [between.started] at notStarted
    cases notStarted
  · obtain ⟨-, -, -, -, isIndex, block, isBlock, valid, rfl⟩ := (process_start_iff isType).mp ran
    rw [between.index] at isIndex
    refine .block block ⟨⟨isType, isIndex⟩, isBlock, valid⟩ ?_
    exact ⟨between.started, between.running, between.noReason, by rw [between.index], between.index,
      between.noDetails, block, valid, sameHead_normalize block⟩
  · obtain ⟨-, -, -, found, active, -, -, -, isActive, -⟩ := (process_delta_iff isType).mp ran
    rw [between.closed] at isActive
    cases isActive
  · obtain ⟨-, -, -, found, active, final, items, replay, -, isActive, -⟩ :=
      (process_stop_iff isType).mp ran
    rw [between.closed] at isActive
    cases isActive
  · obtain ⟨-, -, -, reason, details, usage, legal, ended⟩ := process_messageDelta_ok isType ran
    have counted := between.counted usage
    cases reason with
    | none =>
      cases ended
      exact .delta details legal counted
    | some reason =>
      have agreed := (terminate_ok_iff.mp ended).1
      obtain ⟨_, _, isGiven⟩ := exists_givenAs after.stopDetails
      obtain ⟨listed, -⟩ := (terminate_completes_iff agreed).mp ⟨after, ended, isGiven⟩
      refine .reason reason details legal listed ?_ ?_
      · exact .of_terminate counted.started counted.running counted.closed ended
      · intro given
        exact ((terminate_completes_iff agreed).mp ⟨after, ended, given⟩).2.2
  · obtain ⟨stops, -⟩ := (process_messageStop_iff isType).mp ran
    cases stops
  · exact absurd ran (process_error state isType)

theorem Between.open (starts : StartsBlock index event block) :
    ∃ after, state.processSseEvent text (.json event) = .ok (after, .more) ∧
      Filling index (normalizeStreamContentStart block) after := by
  obtain ⟨⟨isType, isIndex⟩, isBlock, valid⟩ := starts
  rw [← between.index] at isIndex
  refine ⟨_, (process_start_iff isType).mpr ⟨rfl, between.started, between.noReason, between.closed,
    isIndex, block, isBlock, valid, rfl⟩, ?_⟩
  exact ⟨between.started, between.running, between.noReason, by rw [between.index], between.index,
    between.noDetails, block, valid, sameHead_normalize block⟩

theorem Between.count (legal : MessageDelta text event none details) :
    ∃ after, state.processSseEvent text (.json event) = .ok (after, .more) ∧
      Between index after := by
  obtain ⟨usage, takes⟩ := process_messageDelta legal (by simp) between.started between.closed
  exact ⟨_, takes _ rfl, between.counted usage⟩

theorem Between.close (legal : MessageDelta text event (some reason) details)
    (listed : reason ∈ terminalReasons) (given : GivenAs category explanation details) :
    ∃ after, state.processSseEvent text (.json event) = .ok (after, .more) ∧
      Closing reason after ∧ GivenAs category explanation after.stopDetails := by
  have known : some reason ≠ some "compaction" := by
    rintro ⟨⟩
    exact absurd listed (by decide)
  obtain ⟨usage, takes⟩ := process_messageDelta legal known between.started between.closed
  have counted := between.counted usage
  have agreed : ∀ existing, { state with usage := usage }.terminalStopReason = some existing →
      existing = reason := by
    intro existing isExisting
    rw [counted.noReason] at isExisting
    cases isExisting
  have noneGiven : GivenAs category explanation { state with usage := usage }.stopDetails := by
    rw [counted.noDetails]
    simp [GivenAs]
  obtain ⟨after, ended, givenAfter⟩ :=
    (terminate_completes_iff agreed).mpr ⟨listed, noneGiven, given⟩
  refine ⟨after, takes after ended, ?_, givenAfter⟩
  exact .of_terminate counted.started counted.running counted.closed ended

section

variable (areEvents : ∀ event ∈ events, isStreamEvent event)
include areEvents

/-- A stream that completes has content, a stop reason and an end. -/
theorem Between.of_completes (completes : Completes text category explanation state events) :
    ContentEvents text category explanation index events := by
  induction length : events.length using Nat.strong_induction_on generalizing events state index with
  | _ count ih =>
    cases events with
    | nil => exact absurd completes (not_completes_nil between.running)
    | cons event rest =>
      obtain ⟨isEvent, later⟩ := forall_mem_cons.mp areEvents
      rw [length_cons] at length
      by_cases isStop : event.getStr "type" = some "message_stop"
      · obtain ⟨-, -, hasReason, -⟩ := (completes_stop_iff isStop).mp completes
        rw [between.noReason] at hasReason
        cases hasReason
      obtain ⟨after, ran, goesOn⟩ := (completes_cons_iff isStop).mp completes
      have advances : Advances text category explanation index event after :=
        between.next isEvent ran
      cases advances with
      | block block starts filling =>
        obtain ⟨isStart, isBlock, valid⟩ := starts
        obtain ⟨deltas, stop, others, closed, rfl, areDeltas, isStopped, fills, next, ends⟩ :=
          filling.of_completes later goesOn
        obtain ⟨blockType, isType, -⟩ := validStart_type valid
        have legal : BlockEvents.Legal text index ⟨event, deltas, stop⟩ :=
          ⟨isStart, areDeltas, isStopped, block, blockType, isBlock, valid, isType,
            (block_filled_iff valid isType _).mp fills⟩
        have isContent : ContentEvents text category explanation (index + 1) others := by
          refine ih others.length ?_ next ?_ ends rfl
          · rw [length_append, length_cons] at length
            omega
          · intro other listed
            exact later other (by simp [listed])
        simpa [BlockEvents.events] using ContentEvents.block _ legal isContent
      | delta _ legal isBetween =>
        exact .delta legal (ih rest.length (by omega) isBetween later goesOn rfl)
      | reason reason _ legal listed closing given =>
        obtain ⟨givenAfter, closes⟩ := (closing.completes_iff listed later).mp goesOn
        exact .reason legal listed (given givenAfter) closes

theorem Between.completes (content : ContentEvents text category explanation index events) :
    Completes text category explanation state events := by
  induction content generalizing state with
  | block _ legal _ ih =>
    obtain ⟨_, _, isStarted, valid, isType, legalDeltas⟩ := legal.content
    obtain ⟨_, fills, _, finalized⟩ := (block_filled_iff valid isType _).mpr legalDeltas
    obtain ⟨after, ran, filling⟩ := between.open ⟨legal.start, isStarted, valid⟩
    rw [BlockEvents.events, cons_append, append_assoc, singleton_append] at *
    refine (completes_cons_iff (by simp [legal.start.type])).mpr ⟨after, ran, ?_⟩
    refine filling.completes legal.deltas legal.stop fills finalized ?_
    intro closed isBetween
    exact ih isBetween fun event listed => areEvents event (by simp [listed])
  | delta legal _ ih =>
    obtain ⟨after, ran, isBetween⟩ := between.count legal
    refine (completes_cons_iff (by simp [legal.type])).mpr ⟨after, ran, ?_⟩
    exact ih isBetween (forall_mem_cons.mp areEvents).2
  | reason legal listed agrees closing =>
    obtain ⟨after, ran, isClosing, given⟩ := between.close legal listed agrees
    refine (completes_cons_iff (by simp [legal.type])).mpr ⟨after, ran, ?_⟩
    exact (isClosing.completes_iff listed (forall_mem_cons.mp areEvents).2).mpr ⟨given, closing⟩

end

end

theorem start_completes_iff (areEvents : ∀ event ∈ events, isStreamEvent event) :
    (∃ category explanation, Completes text category explanation {} events) ↔
      MessageEvents text events := by
  cases events with
  | nil =>
    constructor
    · rintro ⟨category, explanation, completes⟩
      exact absurd completes (not_completes_nil rfl)
    · rintro ⟨⟩
  | cons event =>
    obtain ⟨isEvent, later⟩ := forall_mem_cons.mp areEvents
    constructor
    · rintro ⟨category, explanation, completes⟩
      by_cases isStop : event.getStr "type" = some "message_stop"
      · obtain ⟨isStarted, -⟩ := (completes_stop_iff isStop).mp completes
        cases isStarted
      obtain ⟨_, ran, goesOn⟩ := (completes_cons_iff isStop).mp completes
      obtain ⟨type, known, isType⟩ := streamEvent_cases isEvent
      simp only [streamEventTypes, mem_cons, not_mem_nil, or_false] at known
      obtain rfl | rfl | rfl | rfl | rfl | rfl | rfl := known
      · obtain ⟨-, noCompaction, -, rfl⟩ := (process_messageStart_iff isType).mp ran
        refine .start isType noCompaction (Between.of_completes ?_ later goesOn)
        exact ⟨rfl, rfl, rfl, rfl, rfl, rfl⟩
      · obtain ⟨-, notStarted, -⟩ := (process_start_iff isType).mp ran
        cases notStarted
      · obtain ⟨-, notStarted, -⟩ := (process_delta_iff isType).mp ran
        cases notStarted
      · obtain ⟨-, notStarted, -⟩ := (process_stop_iff isType).mp ran
        cases notStarted
      · obtain ⟨-, notStarted, -⟩ := process_messageDelta_ok isType ran
        cases notStarted
      · exact absurd isType isStop
      · exact absurd ran (process_error _ isType)
    · intro message
      cases message with
      | @start _ _ category explanation isType noCompaction content =>
        refine ⟨category, explanation, (completes_cons_iff (by simp [isType])).mpr ⟨_,
          (process_messageStart_iff isType).mpr ⟨rfl, noCompaction, rfl, rfl⟩, ?_⟩⟩
        exact Between.completes ⟨rfl, rfl, rfl, rfl, rfl, rfl⟩ later content

end AnthropicStreamState

/-- What the parser looks at among events. -/
def SseEvent.isRead : SseEvent → Bool
  | .json event => isStreamEvent event
  | .malformedJson | .done => true

theorem parseAnthropicStream_ok_iff_message {text : StreamText} {events : List Json}
    (reads : ∀ block ∈ streamedBlocks text (events.map .json),
      text.fromText (text.toText block) = some block) :
    (∃ response, parseAnthropicStream text (events.map .json) = .ok response) ↔
      MessageEvents text (events.filter isStreamEvent) := by
  have passes : ∀ (state : AnthropicStreamState) (event : SseEvent), event.isRead = false →
      state.processSseEvent text event = .ok (state, .more) := by
    intro state event ignored
    cases event with
    | json => exact AnthropicStreamState.process_ignored state ignored
    | malformedJson | done => cases ignored
  have sameRun : Library.consume (AnthropicStreamState.processSseEvent text) {}
      ((events.filter isStreamEvent).map .json) =
        Library.consume (AnthropicStreamState.processSseEvent text) {} (events.map .json) := by
    rw [← Library.consume_filter passes {} (events.map .json), filter_map]
    rfl
  have areEvents : ∀ event ∈ events.filter isStreamEvent, isStreamEvent event :=
    fun event listed => (mem_filter.mp listed).2
  rw [parseAnthropicStream_ok_iff reads, ← AnthropicStreamState.start_completes_iff areEvents]
  constructor
  · rintro ⟨final, ran, stopped⟩
    obtain ⟨category, explanation, given⟩ := exists_givenAs final.stopDetails
    exact ⟨category, explanation, final, sameRun.trans ran, stopped, given⟩
  · rintro ⟨category, explanation, final, ran, stopped, -⟩
    exact ⟨final, sameRun.symm.trans ran, stopped⟩

end PiRelay.AgentProvider
