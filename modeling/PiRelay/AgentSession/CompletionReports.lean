import PiRelay.AgentSession.DueCompletions

/-! Which completions are reported, and how often: at most once by one runtime, never
before the item that records them, and in plain runs always. -/
namespace PiRelay.Session

open AgentVocab AgentCore List

/-- The core still runs the model request, or the batch of tools, of this target. -/
def AgentSession.AtWorkOn (session : AgentSession) (target : CompletionTarget) : Prop :=
  match session.core.state with
  | .runningModel turnId actionId => target = { actionId, turnId, tool := none }
  | .runningTools turnId tools _ => ∃ tool ∈ tools, tool.target turnId = target
  | .idle | .readyToContinue _ => False

theorem AgentSession.atWorkOn_of_waitsFor {session : AgentSession} {target : CompletionTarget}
    (waited : target ∈ session.core.state.waitsFor) : session.AtWorkOn target := by
  rw [AtWorkOn]
  cases hState : session.core.state with
  | idle | readyToContinue => rw [hState] at waited; cases waited
  | runningModel =>
    rw [hState] at waited
    exact mem_singleton.mp waited
  | runningTools =>
    rw [hState] at waited
    obtain ⟨tool, mem, same⟩ := mem_map.mp waited
    exact ⟨tool, (mem_of_mem_drop (mem_of_mem_filter mem)), same⟩

namespace Watched

variable {watched : Watched}

namespace Unlost

theorem atWorkOn_of_notified (holds : watched.Unlost) (busy : watched.session.core.state ≠ .idle)
    {event : AgentEvent} (mem : event ∈ watched.session.core.mailbox.notifications)
    {recorded : RecordedCompletion} (brings : RecordedCompletion.fromEvent event = some recorded) :
    watched.session.AtWorkOn recorded.target := by
  apply AgentSession.atWorkOn_of_waitsFor
  have notified : recorded.target ∈ notifiedTargets watched.session.core.mailbox :=
    mem_filterMap.mpr ⟨event, mem, RecordedCompletion.target_of_fromEvent brings⟩
  cases holds.bounded.backed with
  | live _ bounded => exact bounded.subset (mem_append_right _ notified)
  | cleared _ ending =>
    rcases ending with requested | idle
    · rw [holds.quiet] at requested
      cases requested
    · exact absurd idle busy

theorem atWorkOn_of_waiting (holds : watched.Unlost) {recorded : RecordedCompletion}
    (mem : recorded ∈ watched.session.waiting) : watched.session.AtWorkOn recorded.target := by
  cases holds.due recorded mem with
  | shown accepted =>
    rw [holds.bounded.noItems, Reporting.acceptedBy_nil] at accepted
    cases accepted
  | model notified brings running =>
    apply holds.atWorkOn_of_notified _ (notified ▸ mem_cons_self) brings
    rw [running]
    simp
  | tool running held =>
    rcases held with ⟨event, notified, brings⟩ | ⟨stored, kept, _, same⟩
    · apply holds.atWorkOn_of_notified _ notified brings
      rw [running]
      simp
    · rw [AgentSession.AtWorkOn, running]
      exact ⟨stored, mem_of_mem_drop kept, same⟩

end Unlost

theorem reports_event (completion : AcceptedCompletion) :
    completion.event.reports completion.actionId := by
  obtain ⟨-, -, content, -⟩ := completion
  cases content <;> exact beq_self_eq_true _

/-- An action is reported at most once by one runtime, and only behind the event of
an item that records a completion accepted for it, which stands in the store. In
runs without interrupt, cut-off output and another runtime, with distinct calls in
each message, every accepted completion is reported exactly once as soon as the
core is no longer at work on its batch. -/
theorem completion_events :
    (∀ watched, runs.Reaches watched →
      (∀ actionId, watched.current.countP (·.reports actionId) ≤ 1) ∧
      ∀ before event after, watched.emitted = before ++ event :: after → event.isReport = true →
        ∃ completion ∈ watched.accepted, completion.event = event ∧ ∃ entryId item,
          .transcriptItemAppended entryId item ∈ before.drop completion.mark ∧
            completion.recordedBy item = true ∧
            ∃ node ∈ watched.session.transcriptStore.nodes, node.id = entryId ∧ node.item = item) ∧
    ∀ watched, plainRuns.Reaches watched → ∀ completion ∈ watched.accepted,
      ¬ watched.session.AtWorkOn completion.target →
        completion.event ∈ watched.emitted ∧
          watched.emitted.countP (·.reports completion.actionId) = 1 := by
  have atMost : ∀ watched, runs.Reaches watched → ∀ actionId,
      watched.current.countP (·.reports actionId) ≤ 1 := by
    intro watched reaches actionId
    obtain ⟨_, accounted, _⟩ := (runs_reporting reaches).accounted
    have once := accounted.once.once actionId
    rw [issued] at once
    omega
  constructor
  · intro watched reaches
    refine ⟨atMost watched reaches, ?_⟩
    intro before event after split report
    have reporting := runs_reporting reaches
    obtain ⟨completion, accepted, hEvent, entryId, item, shown, recordedBy⟩ :=
      reporting.recorded before event after split report
    refine ⟨completion, accepted, hEvent, entryId, item, shown, recordedBy, ?_⟩
    apply reporting.shown entryId item
    rw [split]
    exact mem_append_left _ (mem_of_mem_drop shown)
  · intro watched reaches completion accepted finished
    have holds := plainRuns_unlost reaches
    have reported : completion.event ∈ watched.emitted := by
      rcases holds.unlost completion accepted with reported | ⟨recorded, waits, same⟩
      · exact reported
      · have busy := holds.atWorkOn_of_waiting waits
        rw [AcceptedCompletion.target_of_recorded same] at busy
        exact absurd busy finished
    refine ⟨reported, Nat.le_antisymm ?_ ?_⟩
    · have once := atMost watched reaches.of_guarded completion.actionId
      rw [current, holds.unreplaced, drop_zero] at once
      exact once
    · exact countP_pos_iff.mpr ⟨_, reported, reports_event completion⟩

/-- A batch of two tools that finish in reverse order, with a drive after each: the
later call's completion waits for the earlier one, and both are reported once. -/
theorem completion_events_reversed :
    let calls : List ToolCall := [⟨"a", "bash", "\x7b\x7d"⟩, ⟨"b", "bash", "\x7b\x7d"⟩]
    let stamps : Nat → Nat → EntryStamp :=
      fun used draw => { id := toString (used + draw), timestampMs := 0 }
    let watched := [SessionCall.enqueueInput (.followUp { message := .text "go" }),
      .drive (stamps 0),
      .enqueueSessionInput (.modelCompleted 1 1 { items := calls.map .toolCall }) (stamps 10),
      .drive (stamps 20), .enqueueInput (.toolCompleted 3 1 ⟨"b", "bash", "", .success⟩),
      .drive (stamps 30), .enqueueInput (.toolCompleted 2 1 ⟨"a", "bash", "", .success⟩),
      .drive (stamps 40)].foldl call start
    (watched.accepted.map (·.actionId) = [1, 3, 2] ∧ watched.current.length = 13) ∧
      (∀ actionId, watched.current.countP (·.reports actionId) ≤ 1) ∧
      ∀ completion ∈ watched.accepted, watched.emitted.countP (·.reports completion.actionId) = 1 := by
  intro calls stamps watched
  have reaches : plainRuns.Reaches watched := by
    have begun : plainRuns.Reaches start := .start rfl
    have distinct : (SessionCall.enqueueSessionInput
        (.modelCompleted 1 1 { items := calls.map .toolCall }) (stamps 10)).Plain := by
      simp [SessionCall.Plain, AssistantMessage.toolCalls, calls, ToolCall.key]
    have asked := (begun.call (.enqueueInput (.followUp { message := .text "go" }))
      (by simp [SessionCall.Plain])).call (.drive (stamps 0)) trivial
    have batch := (asked.call _ distinct).call (.drive (stamps 20)) trivial
    have second := (batch.call (.enqueueInput (.toolCompleted 3 1 ⟨"b", "bash", "", .success⟩))
      (by simp [SessionCall.Plain])).call (.drive (stamps 30)) trivial
    exact (second.call (.enqueueInput (.toolCompleted 2 1 ⟨"a", "bash", "", .success⟩))
      (by simp [SessionCall.Plain])).call (.drive (stamps 40)) trivial
  refine ⟨by decide +kernel, (completion_events.1 watched reaches.of_guarded).1, ?_⟩
  intro completion accepted
  have ready : watched.session.core.state = .readyToContinue 1 := by decide +kernel
  have finished : ¬ watched.session.AtWorkOn completion.target := by
    simp [AgentSession.AtWorkOn, ready]
  exact (completion_events.2 watched reaches completion accepted finished).2

/-- A failed request is resumed under its own id, and its second end is reported
under that id again. -/
theorem completion_events_resumed :
    ¬ ∀ watched, runs.Reaches watched → ∀ actionId,
      watched.emitted.countP (·.reports actionId) ≤ 1 := by
  intro atMost
  let stamps : Nat → Nat → EntryStamp :=
    fun used draw => { id := toString (used + draw), timestampMs := 0 }
  have begun : runs.Reaches start := .start rfl
  have reaches := begun.calls [.enqueueInput (.followUp { message := .text "go" }),
    .drive (stamps 0), .enqueueInput (.modelFailed 1 1 "offline"), .drive (stamps 2),
    .resumeModelTurn "1" 1 1 (stamps 3),
    .enqueueSessionInput (.modelCompleted 1 1 { items := [] }) (stamps 3), .drive (stamps 3)]
  have twice := atMost _ reaches 1
  revert twice
  decide +kernel

end Watched

end PiRelay.Session
