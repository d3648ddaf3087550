import PiRelay.AgentCore.Requests

/-! Action ids and stale completions. Ids come from one counter, so no request is
ever sent out twice; what is outstanding is told by the history alone, and the
state agrees with it at every point of every run. -/
namespace PiRelay.AgentCore

open AgentVocab List Option

namespace AgentState

variable {next : ActionId} {state : AgentState} {event : AgentEvent} {transition : Transition}

theorem Fires.actionIds (fires : Fires next state event transition) :
    ∃ taken, transition.actions.filterMap AgentAction.actionId = List.range' next taken ∧
      transition.nextActionId = next + taken := by
  cases fires with
  | finish | fail | interruptReady | interruptModel | interruptTools => exact ⟨0, rfl, rfl⟩
  | startTools turnId _ assistant =>
    refine ⟨assistant.toolCalls.length, ?_, startTools_nextActionId _ _ _⟩
    rw [startTools_actions, filterMap_map, ← startTools_map_actionId turnId, ← filterMap_eq_map]
    rfl
  | recordResult => exact ⟨0, by simp [recordResult_eq], by simp [recordResult_eq]⟩
  | _ => exact ⟨1, rfl, rfl⟩

theorem step_actionIds (state : AgentState) (event : AgentEvent) (next : ActionId) :
    ∃ taken, (state.step event next).actions.filterMap AgentAction.actionId =
        List.range' next taken ∧ (state.step event next).nextActionId = next + taken := by
  rcases step_cases state event next with ignored | fires
  · exact ⟨0, by simp [ignored, emptyTransition], by simp [ignored, emptyTransition]⟩
  · exact fires.actionIds

end AgentState

theorem CompletionTarget.fromCoreAction_actionId {action : AgentAction}
    {target : CompletionTarget} (hTarget : fromCoreAction action = some target) :
    action.actionId = some target.actionId := by
  cases action with
  | requestModel | requestTool =>
    cases hTarget
    rfl
  | cancelTurn => cases hTarget

/-- A request is settled by the first completion that names it or by the
cancellation of its turn. -/
def outlives (event : AgentEvent) (actions : List AgentAction) (target : CompletionTarget) : Bool :=
  event.target ≠ some target && !actions.contains (.cancelTurn target.turnId)

/-- The outstanding requests after an event: the unsettled ones and those sent out. -/
def settle (outstanding : List CompletionTarget) (event : AgentEvent)
    (actions : List AgentAction) : List CompletionTarget :=
  outstanding.filter (outlives event actions)
    ++ actions.filterMap CompletionTarget.fromCoreAction

section Settle

variable {outstanding : List CompletionTarget} {state : AgentState} {event : AgentEvent}

theorem settle_sublist (waited : outstanding.Sublist state.waitsFor) (next : ActionId) :
    (settle outstanding event (state.step event next).actions).Sublist
      (state.step event next).state.waitsFor := by
  have kept : ∀ actions, (outstanding.filter (outlives event actions)).Sublist outstanding :=
    fun actions => filter_sublist
  cases hTarget : event.target with
  | some =>
    rcases state.step_completion hTarget next with ⟨_, ignored⟩ | ⟨_, fires⟩
    · rw [ignored]
      simpa [settle, emptyTransition] using (kept []).trans waited
    · obtain ⟨_, _, _, hNamed, before, after⟩ := fires.waitsFor_completion
        (AgentEvent.isCompletion_iff_target.mpr (isSome_of_mem hTarget))
      rw [after, settle]
      refine List.Sublist.append ?_ (List.Sublist.refl _)
      rw [before] at waited
      refine (waited.filter _).trans ?_
      rw [filter_append, filter_cons_of_neg (by simp [outlives, hNamed])]
      exact filter_sublist.append filter_sublist
  | none =>
    have input : event.isCompletion = false := by
      rw [← Bool.not_eq_true, AgentEvent.isCompletion_iff_target, hTarget]
      simp
    rcases AgentState.step_cases state event next with ignored | fires
    · rw [ignored]
      simpa [settle, emptyTransition] using (kept []).trans waited
    · by_cases interrupted : event = .interrupt
      · subst interrupted
        obtain ⟨idle, silent⟩ := fires.waitsFor_interrupt
        rw [idle, settle, silent, append_nil, sublist_nil, filter_eq_nil_iff]
        intro target mem
        have hWaits := waited.subset mem
        generalize state.step .interrupt next = transition at fires
        cases fires with
        | interruptReady => cases hWaits
        | interruptModel =>
          obtain rfl := mem_singleton.mp hWaits
          simp [outlives]
        | interruptTools =>
          obtain ⟨-, _, rfl⟩ := mem_map.mp hWaits
          simp [outlives, RunningTool.target]
      · obtain ⟨before, after⟩ := fires.waitsFor_input input interrupted
        rw [before, sublist_nil] at waited
        rw [after, settle, waited]
        exact List.Sublist.refl _

variable {target : CompletionTarget}

/-- What a state acts on was known before or is asked for now. -/
theorem settle_known (waited : outstanding.Sublist state.waitsFor)
    (known : ∀ target, state.ActsOn target → target ∈ outstanding) (next : ActionId)
    (acts : (state.step event next).state.ActsOn target) :
    target ∈ settle outstanding event (state.step event next).actions := by
  cases hTarget : event.target with
  | some answered =>
    rcases state.step_completion hTarget next with ⟨other, ignored⟩ | ⟨_, fires⟩
    · rw [ignored] at acts ⊢
      have different : answered ≠ target := by
        rintro rfl
        exact other acts
      simpa [settle, outlives, emptyTransition, hTarget, different] using known target acts
    · generalize state.step event next = transition at fires acts
      cases fires with
      | finish | fail => cases acts
      | startTools turnId actionId assistant someCalls =>
        have fires : AgentState.Fires next _ _ _ := .startTools turnId actionId assistant someCalls
        obtain ⟨front, _, back, _, before, after⟩ := fires.waitsFor_completion rfl
        obtain ⟨rfl, rfl⟩ : front = [] ∧ back = [] := by
          cases front with
          | nil => exact ⟨rfl, (List.cons.inj before).2.symm⟩
          | cons =>
            have := (List.cons.inj before).2
            simp at this
        have mem := AgentState.mem_waitsFor_of_actsOn acts
        rw [after] at mem
        exact mem_append_right _ mem
      | recordResult _ _ _ _ _ _ hPosition hTool behind =>
        obtain ⟨before, different⟩ := AgentState.recordResult_actsOn hPosition hTool behind acts
        have mem := known target before
        rw [settle, AgentState.recordResult_eq]
        simp [outlives, mem, different]
      | _ => cases hTarget
  | none =>
    have input : event.isCompletion = false := by
      rw [← Bool.not_eq_true, AgentEvent.isCompletion_iff_target, hTarget]
      simp
    rcases AgentState.step_cases state event next with ignored | fires
    · rw [ignored] at acts ⊢
      simpa [settle, outlives, emptyTransition, hTarget] using known target acts
    · by_cases interrupted : event = .interrupt
      · subst interrupted
        have mem := AgentState.mem_waitsFor_of_actsOn acts
        rw [fires.waitsFor_interrupt.1] at mem
        cases mem
      · have mem := AgentState.mem_waitsFor_of_actsOn acts
        rw [(fires.waitsFor_input input interrupted).2] at mem
        exact mem_append_right _ mem

theorem waitsFor_step {next : ActionId} (mem : target ∈ (state.step event next).state.waitsFor) :
    target ∈ state.waitsFor ∨
      target ∈ (state.step event next).actions.filterMap CompletionTarget.fromCoreAction := by
  rcases AgentState.step_cases state event next with ignored | fires
  · rw [ignored] at mem
    exact .inl mem
  · cases hCompletion : event.isCompletion with
    | true =>
      obtain ⟨_, _, _, _, before, after⟩ := fires.waitsFor_completion hCompletion
      rw [after] at mem
      rcases mem_append.mp mem with old | new
      · left
        rw [before]
        rcases mem_append.mp old with inFront | inBack
        · exact mem_append_left _ inFront
        · exact mem_append_right _ (.tail _ inBack)
      · exact .inr new
    | false =>
      by_cases interrupted : event = .interrupt
      · subst interrupted
        rw [fires.waitsFor_interrupt.1] at mem
        cases mem
      · rw [(fires.waitsFor_input hCompletion interrupted).2] at mem
        exact .inr mem

theorem actionId_of_sent {next : ActionId} (mem : target ∈
      (state.step event next).actions.filterMap CompletionTarget.fromCoreAction) :
    next ≤ target.actionId ∧ target.actionId < (state.step event next).nextActionId := by
  obtain ⟨taken, hIds, hNext⟩ := state.step_actionIds event next
  obtain ⟨action, hAction, hTarget⟩ := mem_filterMap.mp mem
  have listed : target.actionId ∈ List.range' next taken := by
    rw [← hIds]
    exact mem_filterMap.mpr ⟨action, hAction, CompletionTarget.fromCoreAction_actionId hTarget⟩
  rw [hNext]
  exact mem_range'_1.mp listed

end Settle

def Moment.settle (outstanding : List CompletionTarget) : Moment → List CompletionTarget
  | .iterated before =>
    match before.nextEvent.1 with
    | none => outstanding
    | some event =>
      AgentCore.settle outstanding event (before.state.step event before.nextActionId).actions
  | _ => outstanding

/-- The request of an iteration whose completion was acted on. -/
def Moment.consumed : Moment → Option CompletionTarget
  | .iterated before =>
    match before.nextEvent.1 with
    | none => none
    | some event =>
      if before.state.step event before.nextActionId =
          emptyTransition before.state before.nextActionId then none
      else event.target
  | _ => none

/-- The request that is out when a loop is resumed. -/
def LoopStart.outstanding : LoopStart → List CompletionTarget
  | .resumeRunningModel turnId actionId => [{ actionId, turnId, tool := none }]
  | .new | .resumeAt _ _ | .resumeReadyToContinue _ _ => []

namespace Trace

def outstanding (origin : LoopStart) (trace : Trace) : List CompletionTarget :=
  trace.history.foldl Moment.settle origin.outstanding

def consumed (trace : Trace) : List CompletionTarget := trace.history.filterMap Moment.consumed

/-- The agreement of history and state. The outstanding requests are among those
the state waits for, and every completion the state would act on is outstanding. -/
structure Accounted (origin : LoopStart) (trace : Trace) : Prop where
  only : trace.loop.mailbox.OnlyCompletions
  waited : (trace.outstanding origin).Sublist trace.loop.state.waitsFor
  known : ∀ target, trace.loop.state.ActsOn target → target ∈ trace.outstanding origin
  numbered : ∀ target ∈ trace.loop.state.waitsFor, target.actionId < trace.loop.nextActionId
  increasing : (trace.emittedActions.filterMap AgentAction.actionId).Pairwise (· < ·)
  issued : ∀ actionId ∈ trace.emittedActions.filterMap AgentAction.actionId,
    origin.loop.nextActionId ≤ actionId ∧ actionId < trace.loop.nextActionId
  counter : origin.loop.nextActionId ≤ trace.loop.nextActionId
  once : trace.consumed.Nodup
  spent : ∀ target ∈ trace.consumed, target ∉ trace.outstanding origin ∧
    target.actionId < trace.loop.nextActionId

namespace Accounted

variable {origin : LoopStart} {trace : Trace}

section

variable (accounted : trace.Accounted origin)
include accounted

theorem record {moment : Moment} {loop : AgentCoreLoop} (only : loop.mailbox.OnlyCompletions)
    (hState : loop.state = trace.loop.state) (hNext : loop.nextActionId = trace.loop.nextActionId)
    (hSettle : ∀ outstanding, moment.settle outstanding = outstanding)
    (hConsumed : moment.consumed = none)
    (hActions : (trace.record moment loop).emittedActions = trace.emittedActions) :
    (trace.record moment loop).Accounted origin := by
  have hOutstanding : (trace.record moment loop).outstanding origin = trace.outstanding origin := by
    rw [outstanding, record_history, foldl_append]
    exact hSettle _
  have hSame : (trace.record moment loop).consumed = trace.consumed := by
    simp [consumed, hConsumed]
  refine ⟨only, ?_, ?_, ?_, ?_, ?_, ?_, ?_, ?_⟩
  · rw [hOutstanding, record_loop, hState]
    exact accounted.waited
  · rw [hOutstanding, record_loop, hState]
    exact accounted.known
  · rw [record_loop, hState, hNext]
    exact accounted.numbered
  · rw [hActions]
    exact accounted.increasing
  · rw [hActions, record_loop, hNext]
    exact accounted.issued
  · rw [record_loop, hNext]
    exact accounted.counter
  · rw [hSame]
    exact accounted.once
  · rw [hSame, hOutstanding, record_loop, hNext]
    exact accounted.spent

theorem iterate_none (hEvent : trace.loop.nextEvent.1 = none) : trace.iterate.Accounted origin := by
  have hLoop := trace.iterate_loop
  have hTransition : trace.transition =
      emptyTransition trace.loop.state trace.loop.nextActionId := by
    simp [transition, hEvent]
  have hActions := trace.iterate_emittedActions
  rw [hTransition] at hLoop hActions
  apply accounted.record (accounted.only.takes trace.takes)
  · rw [hLoop]
    rfl
  · rw [hLoop]
    rfl
  · intro outstanding
    simp [Moment.settle, hEvent]
  · simp [Moment.consumed, hEvent]
  · exact hActions.trans (append_nil _)

theorem outstanding_of_consumed {target : CompletionTarget}
    (hConsumed : (Moment.iterated trace.loop).consumed = some target) :
    ∃ event, trace.loop.nextEvent.1 = some event ∧ event.target = some target ∧
      target ∈ trace.outstanding origin := by
  cases hEvent : trace.loop.nextEvent.1 with
  | none => simp [Moment.consumed, hEvent] at hConsumed
  | some event =>
    simp only [Moment.consumed, hEvent] at hConsumed
    split at hConsumed
    · cases hConsumed
    · rename_i effective
      refine ⟨event, rfl, hConsumed, ?_⟩
      rcases trace.loop.state.step_completion hConsumed trace.loop.nextActionId with
        ⟨_, ignored⟩ | ⟨acts, _⟩
      · exact absurd ignored effective
      · exact accounted.known target acts

theorem iterate_some {event : AgentEvent} (hEvent : trace.loop.nextEvent.1 = some event) :
    trace.iterate.Accounted origin := by
  have hTransition : trace.transition =
      trace.loop.state.step event trace.loop.nextActionId := by
    simp [transition, hEvent]
  have hState : trace.iterate.loop.state =
      (trace.loop.state.step event trace.loop.nextActionId).state := by
    rw [iterate_loop, hTransition]
    rfl
  have hNext : trace.iterate.loop.nextActionId =
      (trace.loop.state.step event trace.loop.nextActionId).nextActionId := by
    rw [iterate_loop, hTransition]
    rfl
  have hActions : trace.iterate.emittedActions = trace.emittedActions
      ++ (trace.loop.state.step event trace.loop.nextActionId).actions := by
    rw [iterate_emittedActions, hTransition]
  have hOutstanding : trace.iterate.outstanding origin = settle (trace.outstanding origin) event
        (trace.loop.state.step event trace.loop.nextActionId).actions := by
    rw [outstanding, iterate, record_history, foldl_append, ← outstanding]
    simp [Moment.settle, hEvent]
  have hConsumed : trace.iterate.consumed =
      trace.consumed ++ (Moment.iterated trace.loop).consumed.toList := by
    rw [consumed, iterate, record_history, filterMap_append, ← consumed]
    cases hOne : (Moment.iterated trace.loop).consumed <;> simp [hOne]
  obtain ⟨taken, hIds, hCounter⟩ := trace.loop.state.step_actionIds event trace.loop.nextActionId
  have grows : trace.loop.nextActionId ≤ trace.iterate.loop.nextActionId := by
    rw [hNext, hCounter]
    exact Nat.le_add_right _ _
  refine ⟨accounted.only.takes trace.takes, ?_, ?_, ?_, ?_, ?_, ?_, ?_, ?_⟩
  · rw [hOutstanding, hState]
    exact settle_sublist accounted.waited _
  · rw [hOutstanding, hState]
    intro target acts
    exact settle_known accounted.waited accounted.known _ acts
  · rw [hState]
    intro target mem
    rcases waitsFor_step mem with old | new
    · exact Nat.lt_of_lt_of_le (accounted.numbered target old) grows
    · rw [hNext]
      exact (actionId_of_sent new).2
  · rw [hActions, filterMap_append, hIds, pairwise_append]
    refine ⟨accounted.increasing, pairwise_lt_range', ?_⟩
    intro old hOld new hNew
    exact Nat.lt_of_lt_of_le (accounted.issued old hOld).2 (mem_range'_1.mp hNew).1
  · rw [hActions, filterMap_append, hIds]
    intro actionId mem
    rcases mem_append.mp mem with old | new
    · obtain ⟨first, last⟩ := accounted.issued actionId old
      exact ⟨first, Nat.lt_of_lt_of_le last grows⟩
    · obtain ⟨first, last⟩ := mem_range'_1.mp new
      rw [hNext, hCounter]
      exact ⟨Nat.le_trans accounted.counter first, last⟩
  · exact Nat.le_trans accounted.counter grows
  · rw [hConsumed, nodup_append]
    refine ⟨accounted.once, by cases (Moment.iterated trace.loop).consumed <;> simp, ?_⟩
    rintro old hOld new hNew rfl
    obtain ⟨_, _, _, mem⟩ := accounted.outstanding_of_consumed (mem_toList.mp hNew)
    exact (accounted.spent old hOld).1 mem
  · have unsent : ∀ target : CompletionTarget, target.actionId < trace.loop.nextActionId →
        (target ∈ trace.outstanding origin → event.target = some target) →
        target ∉ trace.iterate.outstanding origin ∧
          target.actionId < trace.iterate.loop.nextActionId := by
      intro target low settled
      refine ⟨?_, Nat.lt_of_lt_of_le low grows⟩
      rw [hOutstanding]
      intro mem
      rcases mem_append.mp mem with kept | sent
      · obtain ⟨before, unsettled⟩ := mem_filter.mp kept
        simp [outlives, settled before] at unsettled
      · exact absurd (actionId_of_sent sent).1 (Nat.not_le.mpr low)
    intro target mem
    rw [hConsumed] at mem
    rcases mem_append.mp mem with old | new
    · obtain ⟨gone, low⟩ := accounted.spent target old
      exact unsent target low (fun mem => absurd mem gone)
    · obtain ⟨taken, hTaken, hTarget, outstanding⟩ :=
        accounted.outstanding_of_consumed (mem_toList.mp new)
      cases hEvent.symm.trans hTaken
      exact unsent target (accounted.numbered target (accounted.waited.subset outstanding))
        (fun _ => hTarget)

end

end Accounted

theorem start_accounted (origin : LoopStart) : (start origin.loop).Accounted origin := by
  refine ⟨by simp [start, Mailbox.OnlyCompletions], ?_, ?_, ?_, ?_, ?_, ?_, ?_, ?_⟩
  · cases origin <;> exact List.Sublist.refl _
  · intro target acts
    have mem := AgentState.mem_waitsFor_of_actsOn acts
    cases origin <;> exact mem
  · intro target mem
    cases origin with
    | resumeRunningModel _ actionId =>
      obtain rfl := mem_singleton.mp mem
      exact Nat.lt_succ_self actionId
    | _ => cases mem
  · simp [start, emittedActions]
  · simp [start, emittedActions]
  · exact Nat.le_refl _
  · simp [start, consumed]
  · simp [start, consumed]

theorem Reached.accounted {origin : LoopStart} {trace : Trace}
    (reached : Reached origin.loop trace) : trace.Accounted origin := by
  induction reached with
  | start => exact start_accounted origin
  | enqueueInput _ input ih =>
    exact ih.record (ih.only.pushInput input) rfl rfl (fun _ => rfl) rfl
      (enqueueInput_emittedActions _ input)
  | @iterate trace prior ih =>
    cases hEvent : trace.loop.nextEvent.1 with
    | none => exact ih.iterate_none hEvent
    | some => exact ih.iterate_some hEvent
  | drainActions _ ih =>
    exact ih.record ih.only rfl rfl (fun _ => rfl) rfl (drainActions_emittedActions _)
  | drainTranscriptItems _ ih =>
    exact ih.record ih.only rfl rfl (fun _ => rfl) rfl (drainTranscriptItems_emittedActions _)
  | drainPendingInputs _ ih =>
    exact ih.record ih.only rfl rfl (fun _ => rfl) rfl (drainPendingInputs_emittedActions _)

/-- At every point of every run, within a `drive` too: request ids increase and
exceed the ids out at the start, a model request is outstanding alone, a
completion that names no outstanding request is processed without a trace, and no
request is consumed twice. -/
theorem requests_consumed_at_most_once {origin : LoopStart} {trace : Trace}
    (reached : Reached origin.loop trace) :
    (trace.emittedActions.filterMap AgentAction.actionId).Pairwise (· < ·) ∧
    (∀ actionId ∈ trace.emittedActions.filterMap AgentAction.actionId,
      ∀ target ∈ origin.outstanding, target.actionId < actionId) ∧
    (∀ target ∈ trace.outstanding origin, target.tool = none →
      trace.outstanding origin = [target]) ∧
    (∀ (event : AgentEvent) (target : CompletionTarget) (mailbox : Mailbox)
        (rest : List AgentEvent),
      event.target = some target → target ∉ trace.outstanding origin →
      mailbox.interruptRequested = false → mailbox.notifications = event :: rest →
      ({ trace.loop with mailbox := mailbox } : AgentCoreLoop).driveOnce.1 =
        { trace.loop with mailbox := { mailbox with notifications := rest } }) ∧
    trace.consumed.Nodup := by
  have accounted := reached.accounted
  refine ⟨accounted.increasing, ?_, ?_, ?_, accounted.once⟩
  · intro actionId mem target initial
    have first := (accounted.issued actionId mem).1
    have low := (start_accounted origin).numbered target
      ((start_accounted origin).waited.subset initial)
    exact Nat.lt_of_lt_of_le low first
  · intro target mem model
    have waits := accounted.waited.subset mem
    have sublist := accounted.waited
    cases hState : trace.loop.state with
    | idle | readyToContinue => rw [hState] at waits; cases waits
    | runningModel =>
      rw [hState] at waits sublist
      obtain rfl := mem_singleton.mp waits
      rcases sublist_singleton.mp sublist with empty | single
      · rw [empty] at mem
        cases mem
      · exact single
    | runningTools =>
      rw [hState] at waits
      obtain ⟨_, _, rfl⟩ := mem_map.mp waits
      cases model
  · intro event target mailbox rest hTarget absent quiet first
    have ignored : trace.loop.state.step event trace.loop.nextActionId =
        emptyTransition trace.loop.state trace.loop.nextActionId := by
      rcases trace.loop.state.step_completion hTarget trace.loop.nextActionId with
        ⟨_, ignored⟩ | ⟨acts, _⟩
      · exact ignored
      · exact absurd (accounted.known target acts) absent
    have hNext : ({ trace.loop with mailbox := mailbox } : AgentCoreLoop).nextEvent =
        (some event, { mailbox with notifications := rest }) := by
      simp [AgentCoreLoop.nextEvent, Mailbox.nextEvent, quiet, first]
    rw [AgentCoreLoop.driveOnce_of_some hNext]
    simp [AgentCoreLoop.apply, ignored, emptyTransition, startedTurnId]

theorem requests_consumed_at_most_once_resumed :
    let trace := run (.resumeRunningModel 3 7)
      [.enqueueInput (.modelFailed 6 3 "late"), .drive,
        .enqueueInput (.modelCompleted 7 3 ⟨[.text "done"]⟩), .drive]
    trace.outstanding (.resumeRunningModel 3 7) = [] ∧ trace.consumed.Nodup := by
  refine ⟨by decide, ?_⟩
  have reached : Reached (LoopStart.resumeRunningModel 3 7).loop _ := run_reached _
    [.enqueueInput (.modelFailed 6 3 "late"), .drive,
      .enqueueInput (.modelCompleted 7 3 ⟨[.text "done"]⟩), .drive]
  exact (requests_consumed_at_most_once reached).2.2.2.2

end Trace

end PiRelay.AgentCore
