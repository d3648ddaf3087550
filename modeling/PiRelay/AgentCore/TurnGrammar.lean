import PiRelay.AgentCore.Trace

/-! The shape of a transcript. A turn opens with one input, goes through tool
rounds and ends once; turns follow each other under consecutive ids. The grammar
is stated without the state machine, and everything the loop ever emits is a
prefix of it. -/
namespace PiRelay.AgentCore

open AgentVocab AgentState List Option

def batchItems (turnId : TurnId) (assistant : AssistantMessage)
    (results : List ToolResultMessage) : List TranscriptItem :=
  .assistantMessage assistant :: assistant.toolCalls.map (.toolCallStarted turnId ·)
    ++ results.map .toolResult

/-- A message with tool calls, a start for each call, one result for each call in
the same order, and then at most one input. -/
inductive Round (turnId : TurnId) : List TranscriptItem → Prop where
  | intro (assistant : AssistantMessage) (results : List ToolResultMessage)
      (input : Option TranscriptItem) (someCalls : assistant.toolCalls ≠ [])
      (answered : results.map ToolResultMessage.key = assistant.toolCalls.map ToolCall.key)
      (carried : ∀ item ∈ input, item.isInput = true) :
      Round turnId (batchItems turnId assistant results ++ input.toList)

/-- A turn that may still go on: its opening input and its rounds so far. -/
inductive Opened (turnId : TurnId) : List TranscriptItem → Prop where
  | start (input : TranscriptItem) (carried : input.isInput = true) :
      Opened turnId [.turnStarted turnId, input]
  | round {items round : List TranscriptItem} (prior : Opened turnId items)
      (last : Round turnId round) : Opened turnId (items ++ round)

inductive Ending (turnId : TurnId) : List TranscriptItem → Prop where
  | graceful (assistant : AssistantMessage) (noCalls : assistant.toolCalls = []) :
      Ending turnId [.assistantMessage assistant, .turnFinished turnId .graceful]
  | crashed : Ending turnId [.turnFinished turnId .crashed]
  | interrupted : Ending turnId [.turnFinished turnId .interrupted]

/-- Whole turns under the ids from `first` up to, and without, `next`. -/
inductive Turns (first : TurnId) : TurnId → List TranscriptItem → Prop where
  | nil : Turns first first []
  | snoc {turnId : TurnId} {items opened ending : List TranscriptItem}
      (prior : Turns first turnId items) (hOpened : Opened turnId opened)
      (close : Ending turnId ending) :
      Turns first (TurnId.next turnId) (items ++ (opened ++ ending))

section Marks

variable {turnId first next : TurnId} {items : List TranscriptItem}

theorem turnFinished_not_mem_batchItems (assistant : AssistantMessage)
    (results : List ToolResultMessage) (other : TurnId) (outcome : TurnOutcome) :
    .turnFinished other outcome ∉ batchItems turnId assistant results := by
  simp [batchItems]

theorem turnStarted_not_mem_batchItems (assistant : AssistantMessage)
    (results : List ToolResultMessage) (other : TurnId) :
    .turnStarted other ∉ batchItems turnId assistant results := by
  simp [batchItems]

theorem Round.turnFinished_not_mem (round : Round turnId items) (other : TurnId)
    (outcome : TurnOutcome) : .turnFinished other outcome ∉ items := by
  obtain ⟨assistant, results, _, _, _, carried⟩ := round
  intro mem
  rcases mem_append.mp mem with inBatch | inInput
  · exact turnFinished_not_mem_batchItems assistant results other outcome inBatch
  · have := carried _ (mem_toList.mp inInput)
    cases this

theorem Round.turnStarted_not_mem (round : Round turnId items) (other : TurnId) :
    .turnStarted other ∉ items := by
  obtain ⟨assistant, results, _, _, _, carried⟩ := round
  intro mem
  rcases mem_append.mp mem with inBatch | inInput
  · exact turnStarted_not_mem_batchItems assistant results other inBatch
  · have := carried _ (mem_toList.mp inInput)
    cases this

section

variable (opened : Opened turnId items)
include opened

theorem Opened.turnFinished_not_mem (other : TurnId) (outcome : TurnOutcome) :
    .turnFinished other outcome ∉ items := by
  induction opened with
  | start _ carried =>
    intro mem
    rcases mem_pair.mp mem with absurd | rfl
    · cases absurd
    · cases carried
  | round _ last ih =>
    intro mem
    rcases mem_append.mp mem with inPrior | inLast
    · exact ih inPrior
    · exact last.turnFinished_not_mem other outcome inLast

theorem Opened.turnStarted_mem : .turnStarted turnId ∈ items := by
  induction opened with
  | start => exact (.head _)
  | round _ _ ih => exact mem_append_left _ ih

theorem Opened.turnStarted_eq {other : TurnId} (mem : .turnStarted other ∈ items) :
    other = turnId := by
  induction opened with
  | start _ carried =>
    rcases mem_pair.mp mem with same | rfl
    · exact TranscriptItem.turnStarted.inj same
    · cases carried
  | round _ last ih =>
    rcases mem_append.mp mem with inPrior | inLast
    · exact ih inPrior
    · exact absurd inLast (last.turnStarted_not_mem other)

end

section

variable (ending : Ending turnId items)
include ending

theorem Ending.turnFinished_mem : ∃ outcome, .turnFinished turnId outcome ∈ items := by
  cases ending with
  | graceful => exact ⟨.graceful, by simp⟩
  | crashed => exact ⟨.crashed, by simp⟩
  | interrupted => exact ⟨.interrupted, by simp⟩

theorem Ending.turnFinished_eq {other : TurnId} {outcome : TurnOutcome}
    (mem : .turnFinished other outcome ∈ items) : other = turnId := by
  cases ending with
  | graceful | crashed | interrupted => simp_all

theorem Ending.turnStarted_not_mem (other : TurnId) : .turnStarted other ∉ items := by
  cases ending with
  | graceful | crashed | interrupted => simp

end

theorem Turns.finished_of_started (turns : Turns first next items) {turnId : TurnId}
    (mem : .turnStarted turnId ∈ items) : ∃ outcome, .turnFinished turnId outcome ∈ items := by
  induction turns with
  | nil => cases mem
  | snoc _ hOpened close ih =>
    rcases mem_append.mp mem with inPrior | inLast
    · obtain ⟨outcome, finished⟩ := ih inPrior
      exact ⟨outcome, mem_append_left _ finished⟩
    · rcases mem_append.mp inLast with inOpened | inEnding
      · obtain rfl := hOpened.turnStarted_eq inOpened
        obtain ⟨outcome, finished⟩ := close.turnFinished_mem
        exact ⟨outcome, mem_append_right _ (mem_append_right _ finished)⟩
      · exact absurd inEnding (close.turnStarted_not_mem turnId)

theorem Turns.finished_lt (turns : Turns first next items) {turnId : TurnId}
    {outcome : TurnOutcome} (mem : .turnFinished turnId outcome ∈ items) : turnId < next := by
  induction turns with
  | nil => cases mem
  | snoc _ hOpened close ih =>
    rcases mem_append.mp mem with inPrior | inLast
    · exact Nat.lt_succ_of_lt (ih inPrior)
    · rcases mem_append.mp inLast with inOpened | inEnding
      · exact absurd inOpened (hOpened.turnFinished_not_mem turnId outcome)
      · rw [close.turnFinished_eq inEnding]
        exact Nat.lt_succ_self _

end Marks

/-- A stored result answers the call it is stored for. -/
def RunningTool.Keyed (tool : RunningTool) : Prop :=
  ∀ result, tool.result = some result → result.key = tool.call.key

/-- The emitted items, read off the state: whole turns, and for a turn in
progress its part up to the point the state stands for. -/
inductive Emits (emitted : List TranscriptItem) : AgentState → TurnId → Prop where
  | idle {last : TurnId} (done : Turns TurnId.first (TurnId.next last) emitted) :
      Emits emitted .idle last
  | runningModel {turnId : TurnId} {actionId : ActionId} {done opened : List TranscriptItem}
      (turns : Turns TurnId.first turnId done) (hOpened : Opened turnId opened)
      (split : emitted = done ++ opened) :
      Emits emitted (.runningModel turnId actionId) turnId
  | runningTools {turnId : TurnId} {tools : List RunningTool} {index : Nat}
      {done opened : List TranscriptItem} {assistant : AssistantMessage}
      {results : List ToolResultMessage}
      (turns : Turns TurnId.first turnId done) (hOpened : Opened turnId opened)
      (split : emitted = done ++ (opened ++ batchItems turnId assistant results))
      (someCalls : assistant.toolCalls ≠ [])
      (calls : tools.map RunningTool.call = assistant.toolCalls)
      (recorded : results.map ToolResultMessage.key =
        (assistant.toolCalls.take index).map ToolCall.key)
      (keyed : ∀ tool ∈ tools, tool.Keyed) :
      Emits emitted (.runningTools turnId tools index) turnId
  | readyToContinue {turnId : TurnId} {done opened : List TranscriptItem}
      {assistant : AssistantMessage} {results : List ToolResultMessage}
      (turns : Turns TurnId.first turnId done) (hOpened : Opened turnId opened)
      (split : emitted = done ++ (opened ++ batchItems turnId assistant results))
      (someCalls : assistant.toolCalls ≠ [])
      (answered : results.map ToolResultMessage.key = assistant.toolCalls.map ToolCall.key) :
      Emits emitted (.readyToContinue turnId) turnId

section Results

variable {tools : List RunningTool}

theorem RunningTool.Keyed.interruptedResult_key {tool : RunningTool} (keyed : tool.Keyed) :
    (AgentState.interruptedResult tool).key = tool.call.key := by
  cases hResult : tool.result with
  | none => simp [interruptedResult, hResult, ToolCall.key]
  | some result =>
    rw [interruptedResult, hResult, getD_some]
    exact keyed result hResult

section

variable (keyed : ∀ tool ∈ tools, tool.Keyed)
include keyed

theorem map_key_of_keyed (full : ∀ tool ∈ tools, tool.hasResult) :
    (tools.filterMap RunningTool.result).map ToolResultMessage.key =
      (tools.map RunningTool.call).map ToolCall.key := by
  induction tools with
  | nil => rfl
  | cons tool _ ih =>
    obtain ⟨result, hResult⟩ := isSome_iff_exists.mp (full tool (.head _))
    have headKey := keyed tool (.head _) result hResult
    have restKeys := ih (forall_mem_cons.mp keyed).2 (forall_mem_cons.mp full).2
    rw [filterMap_cons_some hResult, map_cons, headKey, restKeys, map_cons, map_cons]

theorem keyed_modify {result : ToolResultMessage} {resultIndex : Nat}
    (position : tools.findIdx? (·.answeredBy result) = some resultIndex) :
    ∀ tool ∈ tools.modify resultIndex (RunningTool.store result), tool.Keyed := by
  obtain ⟨inRange, answers, _⟩ := findIdx?_eq_some_iff_getElem.mp position
  obtain ⟨front, tool, back, hTools, hLength, hModify⟩ :=
    exists_of_modify (RunningTool.store result) inRange
  have hTool : tools[resultIndex] = tool := by
    simp [hTools, ← hLength]
  rw [hTool] at answers
  intro other hOther
  rw [hModify] at hOther
  rcases mem_append.mp hOther with inFront | inRest
  · exact keyed other (hTools ▸ mem_append_left _ inFront)
  · rcases mem_cons.mp inRest with rfl | inBack
    · intro stored hStored
      cases hStored
      exact RunningTool.answeredBy_iff.mp answers
    · exact keyed other (hTools ▸ mem_append_right _ (.tail _ inBack))

theorem keyed_advancedTools (index : Nat) : ∀ tool ∈ advancedTools tools index, tool.Keyed := by
  intro tool hTool
  rcases mem_append.mp hTool with before | after
  · exact keyed tool (mem_of_mem_take before)
  · rcases mem_append.mp after with taken | left
    · obtain ⟨-, _, rfl⟩ := mem_map.mp taken
      intro result hResult
      cases hResult
    · exact keyed tool (mem_of_mem_drop ((dropWhile_sublist _).subset left))

theorem takenTools_keys (index : Nat) :
    ((takenTools tools index).filterMap RunningTool.result).map ToolResultMessage.key =
      (((tools.map RunningTool.call).drop index).take (takenTools tools index).length).map
        ToolCall.key := by
  rw [← takenTools_map_call]
  apply map_key_of_keyed
  · intro tool hTool
    exact keyed tool (mem_of_mem_drop ((takeWhile_sublist _).subset hTool))
  · intro tool hTool
    exact List.all_eq_true.mp all_takeWhile tool hTool

end

end Results

namespace Emits

variable {emitted : List TranscriptItem} {last turnId : TurnId} {next actionId : ActionId}
  {state : AgentState} {event : AgentEvent} {transition : Transition}

theorem open_idle (emits : Emits emitted .idle last) (input : TranscriptItem)
    (carried : input.isInput) :
    Emits (emitted ++ [.turnStarted (TurnId.next last), input])
      (.runningModel (TurnId.next last) actionId) (TurnId.next last) := by
  cases emits with
  | idle done => exact .runningModel done (.start input carried) rfl

theorem continue_ready (emits : Emits emitted (.readyToContinue turnId) last)
    (input : Option TranscriptItem) (carried : ∀ item ∈ input, item.isInput) :
    Emits (emitted ++ input.toList) (.runningModel turnId actionId) last := by
  cases emits with
  | readyToContinue turns hOpened split someCalls answered =>
    refine .runningModel turns (hOpened.round (.intro _ _ input someCalls answered carried)) ?_
    rw [split]
    simp only [append_assoc]

theorem end_runningModel {ending : List TranscriptItem}
    (emits : Emits emitted (.runningModel turnId actionId) last) (close : Ending turnId ending) :
    Emits (emitted ++ ending) .idle last := by
  cases emits with
  | runningModel turns hOpened split =>
    refine .idle ?_
    rw [split, append_assoc]
    exact turns.snoc hOpened close

theorem interrupt_ready (emits : Emits emitted (.readyToContinue turnId) last) :
    Emits (emitted ++ [.turnFinished turnId .interrupted]) .idle last := by
  have continued : Emits (emitted ++ (none : Option TranscriptItem).toList)
      (.runningModel turnId 0) last := emits.continue_ready none (by simp)
  rw [toList_none, append_nil] at continued
  exact continued.end_runningModel .interrupted

theorem start_tools (emits : Emits emitted (.runningModel turnId actionId) last)
    (assistant : AssistantMessage) (someCalls : assistant.toolCalls ≠ []) :
    Emits (emitted
        ++ .assistantMessage assistant :: (startTools turnId assistant.toolCalls next).items)
      (.runningTools turnId (startTools turnId assistant.toolCalls next).tools 0) last := by
  cases emits with
  | @runningModel _ _ done opened turns hOpened split =>
    have split' : emitted ++ .assistantMessage assistant
          :: (startTools last assistant.toolCalls next).items =
        done ++ (opened ++ batchItems last assistant []) := by
      rw [split, startTools_items, batchItems]
      simp
    refine .runningTools turns hOpened split' someCalls (startTools_map_call _ _ _) rfl ?_
    intro tool hTool result hResult
    rw [startTools_result _ _ _ hTool] at hResult
    cases hResult

theorem record_result {tools : List RunningTool} {index resultIndex : Nat}
    {result : ToolResultMessage} (emits : Emits emitted (.runningTools turnId tools index) last)
    (position : tools.findIdx? (·.answeredBy result) = some resultIndex) :
    Emits
      (emitted ++ (AgentState.recordResult turnId tools index resultIndex result next).items)
      (AgentState.recordResult turnId tools index resultIndex result next).state last := by
  cases emits with
  | @runningTools _ _ _ done opened assistant results turns hOpened split someCalls calls recorded
      keyed =>
      have keyed' := keyed_modify keyed position
      have calls' := (modify_map_call tools resultIndex result).trans calls
      rw [recordResult_eq]
      generalize tools.modify resultIndex (RunningTool.store result) = answered at keyed' calls'
      have taken := takenTools_keys keyed' index
      rw [calls'] at taken
      have recorded' : (results ++ (takenTools answered index).filterMap RunningTool.result).map
            ToolResultMessage.key =
          (assistant.toolCalls.take (index + (takenTools answered index).length)).map
            ToolCall.key := by
        rw [map_append, recorded, taken, take_add, map_append]
      have split' : emitted ++ ((takenTools answered index).filterMap RunningTool.result).map
            .toolResult =
          done ++ (opened ++ batchItems last assistant
            (results ++ (takenTools answered index).filterMap RunningTool.result)) := by
        rw [split, batchItems, batchItems]
        simp
      simp only
      split
      · rename_i finished
        have count : assistant.toolCalls.length = tools.length := by
          rw [← calls, length_map]
        refine .readyToContinue turns hOpened split' someCalls (recorded'.trans ?_)
        rw [finished, ← count, take_length]
      · exact .runningTools turns hOpened split' someCalls
          ((advancedTools_map_call answered index).trans calls') recorded'
          (keyed_advancedTools keyed' index)

theorem interrupt_tools {tools : List RunningTool} {index : Nat}
    (emits : Emits emitted (.runningTools turnId tools index) last) :
    Emits (emitted ++ (tools.drop index).map
        (fun tool => .toolResult (AgentState.interruptedResult tool)))
      (.readyToContinue turnId) last := by
  cases emits with
  | @runningTools _ _ _ done opened assistant results turns hOpened split someCalls calls recorded
      keyed =>
      have split' : emitted ++ (tools.drop index).map
            (fun tool => .toolResult (interruptedResult tool)) =
          done ++ (opened ++ batchItems last assistant
            (results ++ (tools.drop index).map interruptedResult)) := by
        rw [split, batchItems, batchItems]
        simp [Function.comp_def]
      have rest : ((tools.drop index).map interruptedResult).map ToolResultMessage.key =
          (assistant.toolCalls.drop index).map ToolCall.key := by
        rw [← calls, ← map_drop, List.map_map, List.map_map]
        apply map_congr_left
        intro tool hTool
        exact (keyed tool (mem_of_mem_drop hTool)).interruptedResult_key
      refine .readyToContinue turns hOpened split' someCalls ?_
      rw [map_append, recorded, rest, ← map_append, take_append_drop]

section

variable (emits : Emits emitted state last)
include emits

/-- A transition that fires goes on with the grammar of turns. -/
theorem fires (fires : AgentState.Fires next state event transition)
    (startTurn : ∀ turnId input, event = .startTurn turnId input → turnId = TurnId.next last)
    (startObservation : ∀ turnId observation,
      event = .startDaemonObservationTurn turnId observation → turnId = TurnId.next last) :
    Emits (emitted ++ transition.items) transition.state
      ((startedTurnId transition.items).getD last) := by
  cases fires with
  | startTurn turnId input =>
    obtain rfl := startTurn turnId input rfl
    exact emits.open_idle input.intoTranscriptItem rfl
  | startObservation turnId observation =>
    obtain rfl := startObservation turnId observation rfl
    exact emits.open_idle (.daemonToolObservation observation) rfl
  | steer _ input =>
    exact emits.continue_ready (some input.intoTranscriptItem)
      (fun item hItem => Option.some.inj hItem ▸ rfl)
  | observation _ observation =>
    exact emits.continue_ready (some (.daemonToolObservation observation))
      (fun item hItem => Option.some.inj hItem ▸ rfl)
  | continueModel => exact emits.continue_ready none (by simp)
  | finish _ _ assistant noCalls => exact emits.end_runningModel (.graceful assistant noCalls)
  | startTools turnId _ assistant someCalls =>
    have unstarted : startedTurnId (.assistantMessage assistant
        :: (AgentCore.startTools turnId assistant.toolCalls next).items) = none := by
      apply startedTurnId_eq_none
      simp [startTools_items]
    rw [unstarted]
    exact emits.start_tools assistant someCalls
  | fail => exact emits.end_runningModel .crashed
  | recordResult turnId tools index resultIndex _ result position =>
    have unstarted : startedTurnId
        (AgentState.recordResult turnId tools index resultIndex result next).items = none := by
      apply startedTurnId_eq_none
      simp [recordResult_eq]
    rw [unstarted]
    exact emits.record_result position
  | interruptReady => exact emits.interrupt_ready
  | interruptModel => exact emits.end_runningModel .interrupted
  | interruptTools turnId tools index =>
    have unstarted : startedTurnId ((tools.drop index).map
          (fun tool => .toolResult (interruptedResult tool))
        ++ [.turnFinished turnId .interrupted]) = none := by
      apply startedTurnId_eq_none
      intro turnId
      rw [mem_append, List.mem_map, mem_singleton]
      simp
    rw [unstarted, getD_none]
    rw [← append_assoc]
    exact emits.interrupt_tools.interrupt_ready

theorem completable : ∃ rest next, Turns TurnId.first next (emitted ++ rest) := by
  cases emits with
  | idle done => exact ⟨[], _, (append_nil emitted).symm ▸ done⟩
  | @runningModel _ actionId done opened turns hOpened split =>
    have whole : Emits emitted (.runningModel last actionId) last :=
      .runningModel turns hOpened split
    cases whole.end_runningModel .interrupted with
    | idle done => exact ⟨_, _, done⟩
  | @runningTools _ tools index done opened assistant results turns hOpened split someCalls calls
      recorded keyed =>
      have whole : Emits emitted (.runningTools last tools index) last :=
        .runningTools turns hOpened split someCalls calls recorded keyed
      cases whole.interrupt_tools.interrupt_ready with
      | idle done => exact ⟨_, _, append_assoc emitted _ _ ▸ done⟩
  | readyToContinue turns hOpened split someCalls answered =>
    have whole : Emits emitted (.readyToContinue last) last :=
      .readyToContinue turns hOpened split someCalls answered
    cases whole.interrupt_ready with
    | idle done => exact ⟨_, _, done⟩

theorem busy (busy : state ≠ .idle) :
    .turnStarted last ∈ emitted ∧ ∀ outcome, .turnFinished last outcome ∉ emitted := by
  have fresh : ∀ {done opened more : List TranscriptItem}, Turns TurnId.first last done →
      Opened last opened → (∀ outcome, .turnFinished last outcome ∉ more) →
      emitted = done ++ (opened ++ more) →
      .turnStarted last ∈ emitted ∧ ∀ outcome, .turnFinished last outcome ∉ emitted := by
    intro done opened more turns hOpened quiet split
    rw [split]
    refine ⟨mem_append_right _ (mem_append_left _ hOpened.turnStarted_mem), ?_⟩
    intro outcome mem
    rcases mem_append.mp mem with inDone | inRest
    · exact absurd (turns.finished_lt inDone) (Nat.lt_irrefl _)
    · rcases mem_append.mp inRest with inOpened | inMore
      · exact hOpened.turnFinished_not_mem last outcome inOpened
      · exact quiet outcome inMore
  cases emits with
  | idle => exact absurd rfl busy
  | runningModel turns hOpened split =>
    exact fresh turns hOpened (fun _ => not_mem_nil) (by simpa using split)
  | runningTools turns hOpened split | readyToContinue turns hOpened split =>
    exact fresh turns hOpened (turnFinished_not_mem_batchItems _ _ _) split

theorem idle_iff :
    state = .idle ↔
      ∀ turnId, .turnStarted turnId ∈ emitted → ∃ outcome, .turnFinished turnId outcome ∈ emitted := by
  constructor
  · rintro rfl turnId started
    cases emits with
    | idle done => exact done.finished_of_started started
  · intro finished
    by_contra running
    obtain ⟨started, unfinished⟩ := emits.busy running
    obtain ⟨outcome, mem⟩ := finished last started
    exact unfinished outcome mem

end

end Emits

/-- In a running batch every stored result answers its call. -/
def KeyedTools : AgentState → Prop
  | .runningTools _ tools _ => ∀ tool ∈ tools, tool.Keyed
  | .idle | .runningModel _ _ | .readyToContinue _ => True

theorem KeyedTools.fires {state : AgentState} (keyed : KeyedTools state) {next : ActionId}
    {event : AgentEvent} {transition : Transition}
    (fires : AgentState.Fires next state event transition) : KeyedTools transition.state := by
  cases fires with
  | startTools =>
    intro tool mem result hResult
    rw [startTools_result _ _ _ mem] at hResult
    cases hResult
  | recordResult _ _ index _ _ _ hPosition =>
    rw [recordResult_eq]
    simp only
    split
    · trivial
    · exact keyed_advancedTools (keyed_modify keyed hPosition) index
  | _ => trivial

theorem KeyedTools.step {state : AgentState} (keyed : KeyedTools state) (event : AgentEvent)
    (next : ActionId) : KeyedTools (state.step event next).state := by
  rcases step_cases state event next with ignored | fires
  · rw [ignored]
    exact keyed
  · exact keyed.fires fires

/-- Any run of a new loop emits turns, one after the other. -/
theorem Trace.run_new_emits (list : List LoopCall) :
    (run .new list).loop.mailbox.OnlyCompletions ∧
      Emits (run .new list).emittedItems (run .new list).loop.state
        (run .new list).loop.lastTurnId := by
  refine calls_invariant (motive := fun trace => trace.loop.mailbox.OnlyCompletions ∧
    Emits trace.emittedItems trace.loop.state trace.loop.lastTurnId) ?_ ?_ ?_ ?_ ?_ ?_
  · rintro trace input _ ⟨only, emits⟩
    exact ⟨only.pushInput input, (enqueueInput_emittedItems trace input).symm ▸ emits⟩
  · rintro trace ⟨only, emits⟩
    refine ⟨only.takes trace.takes, ?_⟩
    have takes := trace.takes
    rw [iterate_emittedItems, iterate_loop]
    rcases trace.transition_cases with ignored | ⟨event, hEvent, fires⟩
    · rw [ignored]
      simpa [AgentCoreLoop.apply, emptyTransition, startedTurnId] using emits
    · rw [hEvent] at takes
      exact emits.fires fires (fun _ _ starts => only.startTurn_eq (starts ▸ takes))
        (fun _ _ starts => only.startObservation_eq (starts ▸ takes))
  · rintro trace ⟨only, emits⟩
    exact ⟨only, trace.drainActions_emittedItems.symm ▸ emits⟩
  · rintro trace ⟨only, emits⟩
    exact ⟨only, trace.drainTranscriptItems_emittedItems.symm ▸ emits⟩
  · rintro trace ⟨only, emits⟩
    exact ⟨only, trace.drainPendingInputs_emittedItems.symm ▸ emits⟩
  · exact ⟨by simp [start, AgentCoreLoop.new, Mailbox.OnlyCompletions], .idle .nil⟩

/-- Whatever is called and in whatever order, the items put in the outbox are a
prefix of the turn grammar, and the loop is idle exactly between turns. -/
theorem Trace.run_new_follows_turn_grammar (list : List LoopCall) :
    (∃ rest next, Turns TurnId.first next ((run .new list).emittedItems ++ rest)) ∧
      ((run .new list).loop.isIdle = true ↔
        ∀ turnId, .turnStarted turnId ∈ (run .new list).emittedItems →
          ∃ outcome, .turnFinished turnId outcome ∈ (run .new list).emittedItems) := by
  obtain ⟨_, emits⟩ := run_new_emits list
  refine ⟨emits.completable, ?_⟩
  rw [AgentCoreLoop.isIdle, beq_iff_eq]
  exact emits.idle_iff

end PiRelay.AgentCore
