import PiRelay.AgentSession.CompletionEvents
import PiRelay.AgentCore.Quiescence

/-! In a watched run an event reports an accepted completion, behind the item that
records it, and the events of one runtime report an action at most once. The one
completion that is reported without the core, a cut-off output, stays among those
that wait; but the core it strands emits nothing until an interrupt, so the next
drive drops it. -/
namespace PiRelay.Session

open AgentVocab AgentCore List Option

/-- A message that waits for its event lies alone in the mailbox of the core that
asked for it. -/
def AcceptedCompletion.Awaited (completion : AcceptedCompletion) (core : AgentCoreLoop) : Prop :=
  ∀ assistant, completion.content = .message assistant →
    core.mailbox.interruptRequested = false ∧
      core.state = .runningModel completion.turnId completion.actionId ∧
      core.mailbox.notifications =
        [.modelCompleted completion.actionId completion.turnId assistant]

/-- The core waits for an answer that the session took without it. -/
structure AgentSession.Stranded (session : AgentSession) (actionId : ActionId) (turnId : TurnId) :
    Prop where
  running : session.core.state = .runningModel turnId actionId
  settled : session.core.mailbox.notifications = []
  quiet : session.core.mailbox.interruptRequested = false
  nothing : session.outstandingActions.pending = []

namespace Watched

structure Accounted (watched : Watched) (waiting : List RecordedCompletion) : Prop where
  once : OnceEach watched.current waiting watched.session.outstandingActions.pending
    watched.session.core.nextActionId
  known : ∀ recorded ∈ waiting, ∃ completion ∈ watched.accepted,
    completion.recorded = some recorded ∧ completion.mark ≤ watched.emitted.length ∧
      completion.Awaited watched.session.core

structure Reporting (watched : Watched) : Prop where
  bounded : watched.session.LedgerBounded
  since : watched.replacedAt ≤ watched.emitted.length
  shown : ∀ entryId item, .transcriptItemAppended entryId item ∈ watched.emitted →
    ∃ node ∈ watched.session.transcriptStore.nodes, node.id = entryId ∧ node.item = item
  recorded : RecordedFirst watched.accepted watched.emitted
  accounted : ∃ waiting, watched.Accounted waiting ∧
    (watched.session.waiting = waiting ∨ ∃ actionId turnId,
      watched.session.waiting = waiting ++ [.modelCompleted actionId turnId] ∧
        watched.session.Stranded actionId turnId)

/-- The same run with its session in another place. -/
abbrev move (watched : Watched) (session : AgentSession) : Watched := { watched with session }

namespace Reporting

variable {watched : Watched} {after : AgentSession}

theorem emitted_move {more : List SessionEvent}
    (hEvents : after.eventOutbox = watched.session.eventOutbox ++ more) :
    (watched.move after).emitted = watched.emitted ++ more := by
  rw [emitted, hEvents, ← append_assoc]
  rfl

theorem current_move (since : watched.replacedAt ≤ watched.emitted.length) {more : List SessionEvent}
    (hEvents : after.eventOutbox = watched.session.eventOutbox ++ more) :
    (watched.move after).current = watched.current ++ more := by
  rw [current, emitted_move hEvents, drop_append_of_le_length since]
  rfl

section

variable (reporting : watched.Reporting) (bounded : after.LedgerBounded)
  (hNext : after.core.nextActionId = watched.session.core.nextActionId)
  (hStore : after.transcriptStore = watched.session.transcriptStore)
include reporting bounded hNext hStore

theorem of_same (hEvents : after.eventOutbox = watched.session.eventOutbox)
    (hLedger : after.outstandingActions = watched.session.outstandingActions)
    (hState : after.core.state = watched.session.core.state)
    (hNotified : after.core.mailbox.notifications = watched.session.core.mailbox.notifications)
    (hFlag : after.core.mailbox.interruptRequested = watched.session.core.mailbox.interruptRequested) :
    (watched.move after).Reporting := by
  have hEmitted : (watched.move after).emitted = watched.emitted := by
    rw [emitted, hEvents]
    rfl
  have hCurrent : (watched.move after).current = watched.current := by
    rw [current, hEmitted]
    rfl
  obtain ⟨waiting, ⟨once, known⟩, hWaiting⟩ := reporting.accounted
  refine
    { bounded
      since := by rw [hEmitted]; exact reporting.since
      shown := by rw [hEmitted, hStore]; exact reporting.shown
      recorded := by rw [hEmitted]; exact reporting.recorded
      accounted := ⟨waiting, ⟨?_, ?_⟩, ?_⟩ }
  · rw [hCurrent, hLedger, hNext]
    exact once
  · intro recorded mem
    obtain ⟨completion, accepted, hRecorded, mark, awaited⟩ := known recorded mem
    refine ⟨completion, accepted, hRecorded, by rw [hEmitted]; exact mark, ?_⟩
    intro assistant hContent
    rw [hFlag, hState, hNotified]
    exact awaited assistant hContent
  · rw [AgentSession.waiting, hLedger]
    rcases hWaiting with settled | ⟨actionId, turnId, hWaiting, stranded⟩
    · exact .inl settled
    · refine .inr ⟨actionId, turnId, hWaiting, ?_⟩
      exact
        { running := hState.trans stranded.running
          settled := hNotified.trans stranded.settled
          quiet := hFlag.trans stranded.quiet
          nothing := by rw [hLedger]; exact stranded.nothing }

theorem cleared (silent : Silent watched.session after) (hWaiting : after.waiting = [])
    (hPending : after.outstandingActions.pending = []) : (watched.move after).Reporting := by
  obtain ⟨_, hEvents, requests⟩ := silent.requests
  have hEmitted := emitted_move hEvents
  obtain ⟨_, ⟨once, _⟩, _⟩ := reporting.accounted
  refine
    { bounded
      since := ?_
      shown := ?_
      recorded := ?_
      accounted := ⟨[], ⟨?_, by simp⟩, .inl hWaiting⟩ }
  · rw [hEmitted, length_append]
    exact Nat.le_trans reporting.since (Nat.le_add_right _ _)
  · intro entryId item mem
    rw [hEmitted] at mem
    rw [hStore]
    rcases mem_append.mp mem with old | new
    · exact reporting.shown entryId item old
    · obtain ⟨_, request⟩ := requests _ new
      cases request
  · rw [hEmitted]
    exact reporting.recorded.append_silent (requests_silent requests)
  · rw [current_move reporting.since hEvents, hPending, hNext]
    apply once.mono
    intro actionId
    rw [issued, issued, countP_append,
      SessionEvent.countP_reports_of_silent (requests_silent requests)]
    simp only [countP_nil]
    omega

end

theorem acceptedBy_nil (recorded : RecordedCompletion) : recorded.acceptedBy [] = false := by
  cases recorded <;> rfl

variable {completion : AcceptedCompletion} {recorded : RecordedCompletion} {input : AgentInput}

theorem shown_of_awaited {core : AgentCoreLoop} (awaited : completion.Awaited core)
    {assistant : AssistantMessage} (hContent : completion.content = .message assistant) :
    .assistantMessage assistant ∈ core.drive.transcriptItemOutbox := by
  obtain ⟨quiet, running, notified⟩ := awaited assistant hContent
  have hNext : core.nextEvent =
      (some (.modelCompleted completion.actionId completion.turnId assistant),
        { core.mailbox with notifications := [], interruptRequested := false }) := by
    simp [AgentCoreLoop.nextEvent, Mailbox.nextEvent, quiet, notified]
  apply AgentCoreLoop.drive_emits hNext
  rw [running]
  simp only [AgentState.step, AgentState.onModelCompleted, AgentState.isRunningModel, beq_self_eq_true,
    Bool.and_self, Bool.not_true, Bool.false_eq_true, ↓reduceIte]
  split <;> exact (.head _)

theorem recordedBy_of_acceptedBy (hRecorded : completion.recorded = some recorded)
    {items : List TranscriptItem} (message : ∀ assistant, completion.content = .message assistant →
      .assistantMessage assistant ∈ items) (accepted : recorded.acceptedBy items) :
    ∃ item ∈ items, completion.recordedBy item := by
  obtain ⟨_, _, content, _⟩ := completion
  cases content with
  | cutOff => cases hRecorded
  | message assistant => exact ⟨_, message assistant rfl, by simp [AcceptedCompletion.recordedBy]⟩
  | failure =>
    cases hRecorded
    refine ⟨_, contains_iff_mem.mp accepted, ?_⟩
    simp [AcceptedCompletion.recordedBy]
  | result =>
    cases hRecorded
    obtain ⟨item, mem, shows⟩ := any_eq_true.mp accepted
    refine ⟨item, mem, ?_⟩
    cases item with
    | toolResult => exact shows
    | _ => cases shows

theorem result_of_waits (hRecorded : completion.recorded = some recorded)
    {items : List TranscriptItem} {pending : List CompletionTarget}
    (waits : recorded.shouldWaitForMoreItems items pending) (core : AgentCoreLoop) :
    completion.Awaited core := by
  intro assistant hContent
  rw [AcceptedCompletion.recorded, hContent] at hRecorded
  cases hRecorded
  cases waits

/-- A drive keeps the account of what was reported. -/
theorem drive (reporting : watched.Reporting) (stamps : Nat → EntryStamp) :
    (watched.move (watched.session.drive stamps)).Reporting := by
  obtain ⟨more, requests, hEvents, kept⟩ := watched.session.drive_events stamps
  obtain ⟨waiting, ⟨once, known⟩, hWaiting⟩ := reporting.accounted
  -- A stranded completion is dropped by the drive: the core emits nothing.
  have live : watched.session.waiting.filter
        (·.acceptedBy watched.session.core.drive.transcriptItemOutbox) =
      waiting.filter (·.acceptedBy watched.session.core.drive.transcriptItemOutbox) ∧
      watched.session.waiting.filter (fun recorded =>
        !recorded.acceptedBy watched.session.core.drive.transcriptItemOutbox
          && recorded.shouldWaitForMoreItems watched.session.core.drive.transcriptItemOutbox
            watched.session.outstandingActions.pending) =
      waiting.filter (fun recorded =>
        !recorded.acceptedBy watched.session.core.drive.transcriptItemOutbox
          && recorded.shouldWaitForMoreItems watched.session.core.drive.transcriptItemOutbox
            watched.session.outstandingActions.pending) := by
    rcases hWaiting with same | ⟨actionId, turnId, hStranded, stranded⟩
    · rw [same]
      exact ⟨rfl, rfl⟩
    · have unmoved := AgentCoreLoop.drive_of_runningModel stranded.running stranded.settled
        stranded.quiet
      rw [unmoved, reporting.bounded.noItems, hStranded]
      simp [acceptedBy_nil, RecordedCompletion.shouldWaitForMoreItems]
  rw [live.1] at hEvents
  rw [live.2] at kept
  have appended : (watched.session.drive stamps).eventOutbox = watched.session.eventOutbox
      ++ (AgentSession.appendedEvents watched.session.core.drive.transcriptItemOutbox stamps
        ++ (waiting.filter (·.acceptedBy watched.session.core.drive.transcriptItemOutbox)).map
            RecordedCompletion.sessionEvent ++ more) := by
    rw [hEvents]
    simp only [append_assoc]
  have hEmitted := emitted_move appended
  have bounded := reporting.bounded.drive stamps
  refine
    { bounded
      since := ?_
      shown := ?_
      recorded := ?_
      accounted := ⟨(watched.session.drive stamps).waiting, ⟨?_, ?_⟩, .inl rfl⟩ }
  · rw [hEmitted, length_append]
    exact Nat.le_trans reporting.since (Nat.le_add_right _ _)
  · intro entryId item mem
    rw [hEmitted] at mem
    rw [AgentSession.drive_transcriptStore, TranscriptStore.appendTranscriptItems_nodes]
    rcases mem_append.mp mem with old | new
    · obtain ⟨node, found, named⟩ := reporting.shown entryId item old
      exact ⟨node, mem_append_left _ found, named⟩
    · rcases mem_append.mp new with first | request
      · rcases mem_append.mp first with item | report
        · obtain ⟨node, found, named⟩ := appendedEvents_entry item
          exact ⟨node, mem_append_right _ found, named⟩
        · obtain ⟨recorded, _, same⟩ := mem_map.mp report
          cases recorded <;> cases same
      · obtain ⟨_, same⟩ := requests _ request
        cases same
  · rw [hEmitted, ← append_assoc, ← append_assoc]
    have items := reporting.recorded.append_silent
      fun event (mem : event ∈ AgentSession.appendedEvents
        watched.session.core.drive.transcriptItemOutbox stamps) => appendedEvents_silent mem
    refine RecordedFirst.append_silent ?_ (requests_silent requests)
    apply items.append
    intro before event after split report
    have mem : event ∈ (waiting.filter
        (·.acceptedBy watched.session.core.drive.transcriptItemOutbox)).map
          RecordedCompletion.sessionEvent := split ▸ mem_append_right _ (.head _)
    obtain ⟨recorded, hRecorded, rfl⟩ := mem_map.mp mem
    obtain ⟨waits, accepted⟩ := mem_filter.mp hRecorded
    obtain ⟨completion, hCompletion, same, mark, awaited⟩ := known recorded waits
    obtain ⟨item, hItem, recordedBy⟩ := recordedBy_of_acceptedBy same
      (fun assistant hContent => shown_of_awaited awaited hContent) accepted
    obtain ⟨entryId, hEntry⟩ := mem_appendedEvents hItem stamps
    refine ⟨completion, hCompletion, (AcceptedCompletion.event_of_recorded same).symm, entryId, item,
      ?_, recordedBy⟩
    rw [append_assoc, drop_append_of_le_length mark]
    exact mem_append_right _ (mem_append_left _ hEntry)
  · rw [current_move reporting.since appended, ← append_assoc, ← append_assoc]
    obtain ⟨grows, old⟩ := tracked_drive watched.session.outstandingActions.pending
      watched.session.core
    rw [reporting.bounded.noActions] at old
    refine once.drive (fun event mem => appendedEvents_silent mem)
      (requests_silent requests) (kept.trans ?_) bounded.numbered ?_ ?_
    · apply monotone_filter_right
      intro recorded both
      exact (Bool.and_eq_true_iff.mp both).1
    · rw [AgentSession.drive_pending]
      exact old
    · rw [AgentSession.drive_core]
      exact grows
  · intro recorded mem
    obtain ⟨waits, both⟩ := mem_filter.mp (kept.subset mem)
    obtain ⟨completion, hCompletion, same, mark, _⟩ := known recorded waits
    refine ⟨completion, hCompletion, same, ?_,
      result_of_waits same (Bool.and_eq_true_iff.mp both).2 _⟩
    rw [hEmitted, length_append]
    exact Nat.le_trans mark (Nat.le_add_right _ _)

/-- An accepted completion enters the account. -/
theorem accept (reporting : watched.Reporting)
    (reports : RecordedCompletion.fromInput input = some recorded)
    (hCompletion : AcceptedCompletion.fromInput watched.emitted.length input = some completion)
    (isPending : recorded.target ∈ watched.session.outstandingActions.pending)
    (bounded : after.LedgerBounded) (hCore : after.core = watched.session.core.enqueueInput input)
    (hPending : after.outstandingActions.pending =
      watched.session.outstandingActions.pending.erase recorded.target)
    (hWaiting : after.waiting = watched.session.waiting ++ [recorded])
    (hEvents : after.eventOutbox = watched.session.eventOutbox)
    (hStore : after.transcriptStore = watched.session.transcriptStore) :
    ({ watched with session := after, accepted := watched.accepted ++ [completion] } :
      Watched).Reporting := by
  have hEmitted : (watched.move after).emitted = watched.emitted := by
    rw [emitted, hEvents]
    rfl
  obtain ⟨waiting, ⟨once, known⟩, hLive⟩ := reporting.accounted
  have live : watched.session.waiting = waiting := by
    rcases hLive with same | ⟨_, _, _, stranded⟩
    · exact same
    · rw [stranded.nothing] at isPending
      cases isPending
  obtain ⟨_, hReports, same, mark⟩ := AcceptedCompletion.recorded_of_fromInput hCompletion
  cases reports.symm.trans hReports
  refine
    { bounded
      since := by
        show watched.replacedAt ≤ (watched.move after).emitted.length
        rw [hEmitted]
        exact reporting.since
      shown := by
        show ∀ entryId item, _ ∈ (watched.move after).emitted → _
        rw [hEmitted, hStore]
        exact reporting.shown
      recorded := by
        show RecordedFirst _ (watched.move after).emitted
        rw [hEmitted]
        exact reporting.recorded.accept _
      accounted := ⟨waiting ++ [recorded], ⟨?_, ?_⟩, .inl (by rw [hWaiting, live])⟩ }
  · show OnceEach (watched.move after).current _ _ _
    rw [current, hEmitted, hPending, hCore]
    exact once.accept isPending
  · show ∀ other ∈ waiting ++ [recorded], ∃ found ∈ watched.accepted ++ [completion],
      found.recorded = some other ∧ found.mark ≤ (watched.move after).emitted.length ∧
        found.Awaited after.core
    rw [hEmitted]
    intro other mem
    rcases Library.mem_concat.mp mem with old | rfl
    · obtain ⟨found, accepted, hFound, hMark, awaited⟩ := known other old
      refine ⟨found, mem_append_left _ accepted, hFound, hMark, ?_⟩
      intro assistant hContent
      obtain ⟨_, running, notified⟩ := awaited assistant hContent
      rw [(reporting.bounded.settled_of_runningModel running isPending).1] at notified
      cases notified
    · refine ⟨completion, mem_append_right _ (.head _), same, Nat.le_of_eq mark, ?_⟩
      intro assistant hContent
      cases input with
      | modelCompleted =>
        cases hCompletion
        cases reports
        injection hContent with hMessage
        subst hMessage
        obtain ⟨running, settled, _, quiet⟩ := reporting.bounded.lone_model isPending
        rw [hCore]
        refine ⟨quiet, running, ?_⟩
        show watched.session.core.mailbox.notifications ++ [_] = [_]
        rw [settled]
        rfl
      | modelFailed | toolCompleted =>
        cases hCompletion
        cases hContent
      | _ => cases hCompletion

def inputAccepts (watched : Watched) (input : AgentInput) : Option AcceptedCompletion :=
  (AcceptedCompletion.fromInput watched.emitted.length input).filter
    fun completion => watched.session.outstandingActions.pending.contains completion.target

theorem inputAccepts_of_queued (noReport : RecordedCompletion.fromInput input = none) :
    inputAccepts watched input = none := by
  cases input with
  | modelCompleted | modelFailed | toolCompleted => cases noReport
  | _ => rfl

section

variable (reports : RecordedCompletion.fromInput input = some recorded)
include reports

theorem inputAccepts_of_stale (stale : recorded.target ∉ watched.session.outstandingActions.pending) :
    inputAccepts watched input = none := by
  obtain ⟨completion, hCompletion, same, _⟩ :=
    AcceptedCompletion.fromInput_of_recorded reports watched.emitted.length
  rw [inputAccepts, hCompletion, filter_some, if_neg]
  rw [← AcceptedCompletion.target_of_recorded same]
  simpa using stale

theorem inputAccepts_of_pending
    (isPending : recorded.target ∈ watched.session.outstandingActions.pending) :
    ∃ completion, inputAccepts watched input = some completion ∧
      AcceptedCompletion.fromInput watched.emitted.length input = some completion ∧
      completion.recorded = some recorded ∧ completion.mark = watched.emitted.length := by
  obtain ⟨completion, hCompletion, same, mark⟩ :=
    AcceptedCompletion.fromInput_of_recorded reports watched.emitted.length
  refine ⟨completion, ?_, hCompletion, same, mark⟩
  rw [inputAccepts, hCompletion, filter_some, if_pos]
  rw [← AcceptedCompletion.target_of_recorded same]
  simpa using isPending

end

theorem enqueue (reporting : watched.Reporting) (input : AgentInput) :
    ({ watched with
      session := watched.session.enqueueAccepted input
      accepted := watched.accepted ++ (inputAccepts watched input).toList } : Watched).Reporting := by
  have bounded := reporting.bounded.enqueueAccepted input
  have enqueues := watched.session.enqueueAccepted_enqueues input
  generalize watched.session.enqueueAccepted input = enqueued at bounded enqueues
  cases enqueues with
  | interrupt =>
    obtain ⟨silent, noneWait⟩ := Silent.invalidateSessionWork watched.session
    rw [inputAccepts, AcceptedCompletion.fromInput, filter_none, toList_none, append_nil]
    exact reporting.cleared bounded rfl watched.session.invalidateSessionWork_transcriptStore
      ⟨silent.requests, silent.waiting⟩ noneWait watched.session.invalidateSessionWork_pending
  | queued noReport noInterrupt =>
    rw [inputAccepts_of_queued noReport, toList_none, append_nil]
    apply reporting.of_same bounded rfl rfl rfl rfl rfl ?_ ?_
    · show (watched.session.core.mailbox.pushInput input).notifications = _
      rw [Mailbox.pushInput_notifications, RecordedCompletion.completion_of_none noReport]
      simp
    · exact AgentInput.flag_of_ne_interrupt noInterrupt _
  | stale reports stale =>
    rw [inputAccepts_of_stale reports stale, toList_none, append_nil]
    exact reporting
  | completion reports isPending =>
    obtain ⟨completion, accepts, hCompletion, _⟩ := inputAccepts_of_pending reports isPending
    rw [accepts]
    exact reporting.accept reports hCompletion isPending bounded rfl rfl rfl rfl rfl

/-- An output that was cut off is in the account, too. -/
theorem cutOff (reporting : watched.Reporting) (actionId : ActionId) (turnId : TurnId)
    (assistant : AssistantMessage) (providerReplay : List ProviderReplayItem) (error : String)
    (stamps : Nat → EntryStamp) :
    ({ watched with
      session := watched.session.acceptModelMaxOutputTokens actionId turnId assistant providerReplay
        error stamps
      accepted := watched.accepted ++
        (Option.filter
          (fun completion => watched.session.outstandingActions.pending.contains completion.target)
          (some ⟨actionId, turnId, .cutOff assistant error, watched.emitted.length⟩)).toList } :
      Watched).Reporting := by
  have bounded := reporting.bounded.acceptModelMaxOutputTokens actionId turnId assistant
    providerReplay error stamps
  have hTarget : (⟨actionId, turnId, .cutOff assistant error, watched.emitted.length⟩ :
      AcceptedCompletion).target = { actionId, turnId, tool := none } := rfl
  rcases watched.session.acceptModelMaxOutputTokens_cases actionId turnId assistant providerReplay
    error stamps with ⟨stale, same⟩ | ⟨isPending, accepted⟩
  · rw [same, filter_some, if_neg (by rw [hTarget]; simpa using stale), toList_none, append_nil]
    exact reporting
  · rw [accepted] at bounded ⊢
    rw [filter_some, if_pos (by rw [hTarget]; simpa using isPending), toList_some]
    obtain ⟨running, settled, alone, quiet⟩ := reporting.bounded.lone_model isPending
    obtain ⟨waiting, ⟨once, known⟩, hLive⟩ := reporting.accounted
    have live : watched.session.waiting = waiting := by
      rcases hLive with same | ⟨_, _, _, stranded⟩
      · exact same
      · rw [stranded.nothing] at isPending
        cases isPending
    have noMessage : ∀ completion : AcceptedCompletion,
        completion.Awaited watched.session.core → ∀ core, completion.Awaited core := by
      intro completion awaited core assistant hContent
      obtain ⟨_, _, notified⟩ := awaited assistant hContent
      rw [settled] at notified
      cases notified
    generalize hItems : [SessionEvent.transcriptItemAppended (stamps 0).id (.assistantMessage assistant),
      .transcriptItemAppended (stamps 1).id (.turnFinished turnId .crashed)] = items
    generalize hAfter : (watched.session.eventOutbox
      ++ [.transcriptItemAppended (stamps 0).id (.assistantMessage assistant)]
      ++ [.transcriptItemAppended (stamps 1).id (.turnFinished turnId .crashed)]
      ++ [.actionFailed .model (toString actionId) error]) = events at bounded ⊢
    have hEvents : events = watched.session.eventOutbox
        ++ (items ++ [.actionFailed .model (toString actionId) error]) := by
      rw [← hAfter, ← hItems]
      simp
    have hEmitted : watched.drained ++ events = watched.emitted
        ++ (items ++ [.actionFailed .model (toString actionId) error]) := by
      rw [hEvents, ← append_assoc]
      rfl
    have silent : ∀ event ∈ items, event.isReport = false := by
      rw [← hItems]
      simp [SessionEvent.isReport]
    refine
      { bounded
        since := ?_
        shown := ?_
        recorded := ?_
        accounted := ⟨waiting, ⟨?_, ?_⟩, .inr ⟨actionId, turnId, by rw [← live], ?_⟩⟩ }
    · show watched.replacedAt ≤ (watched.drained ++ events).length
      rw [hEmitted, length_append]
      exact Nat.le_trans reporting.since (Nat.le_add_right _ _)
    · show ∀ entryId item, _ ∈ watched.drained ++ events → _
      rw [hEmitted]
      intro entryId item mem
      rcases mem_append.mp mem with old | new
      · obtain ⟨node, found, named⟩ := reporting.shown entryId item old
        exact ⟨node, mem_append_left _ (mem_append_left _ found), named⟩
      · rw [← hItems] at new
        simp only [cons_append, nil_append, mem_cons, not_mem_nil, or_false] at new
        rcases new with same | same | same
        · injection same with hId hItem
          exact ⟨_, mem_append_left _ (mem_append_right _ (.head _)), hId.symm, hItem.symm⟩
        · injection same with hId hItem
          exact ⟨_, mem_append_right _ (.head _), hId.symm, hItem.symm⟩
        · cases same
    · show RecordedFirst _ (watched.drained ++ events)
      rw [hEmitted, ← append_assoc]
      have appended := (reporting.recorded.accept
        [⟨actionId, turnId, .cutOff assistant error, watched.emitted.length⟩]).append_silent silent
      apply appended.append
      intro before event rest split _
      have alone : before = [] ∧ event = .actionFailed .model (toString actionId) error := by
        cases before with
        | nil =>
          injection split with hEvent _
          exact ⟨rfl, hEvent.symm⟩
        | cons _ others =>
          injection split with _ hOthers
          cases others <;> cases hOthers
      obtain ⟨rfl, rfl⟩ := alone
      refine ⟨_, mem_append_right _ (.head _), rfl, (stamps 1).id,
        .turnFinished turnId .crashed, ?_, by simp [AcceptedCompletion.recordedBy]⟩
      rw [append_nil, drop_left, ← hItems]
      simp
    · show OnceEach ((watched.drained ++ events).drop watched.replacedAt) _ _ _
      rw [hEmitted, drop_append_of_le_length reporting.since, ← append_assoc]
      apply once.report isPending silent
      intro other
      exact SessionEvent.toString_actionId_beq actionId other
    · intro recorded mem
      obtain ⟨completion, hCompletion, hRecorded, mark, awaited⟩ := known recorded mem
      refine ⟨completion, mem_append_left _ hCompletion, hRecorded, ?_,
        noMessage completion awaited _⟩
      show completion.mark ≤ (watched.drained ++ events).length
      rw [hEmitted, length_append]
      exact Nat.le_trans mark (Nat.le_add_right _ _)
    · exact
        { running := running
          settled := settled
          quiet := quiet
          nothing := by
            show watched.session.outstandingActions.pending.erase _ = []
            rw [alone, erase_cons_head] }

/-- A part of a call that reports nothing, though it may append items. -/
def Quiet (before after : AgentSession) : Prop :=
  ∃ more, after.eventOutbox = before.eventOutbox ++ more ∧
    ∀ event ∈ more, event.isReport = false

theorem Quiet.trans {first second third : AgentSession} (left : Quiet first second)
    (right : Quiet second third) : Quiet first third := by
  obtain ⟨more, hMore, silent⟩ := left
  obtain ⟨others, hOthers, othersSilent⟩ := right
  refine ⟨more ++ others, by rw [hOthers, hMore, append_assoc], ?_⟩
  intro event mem
  rcases mem_append.mp mem with old | new
  · exact silent event old
  · exact othersSilent event new

theorem Quiet.of_silent {before after : AgentSession} (silent : Silent before after) :
    Quiet before after := by
  obtain ⟨more, hMore, requests⟩ := silent.requests
  exact ⟨more, hMore, requests_silent requests⟩

theorem quiet_drive {session : AgentSession} (noneWait : session.waiting = [])
    (stamps : Nat → EntryStamp) : Quiet session (session.drive stamps) := by
  obtain ⟨_, requests, hEvents, _⟩ := session.drive_events stamps
  rw [noneWait, filter_nil, map_nil, append_nil, append_assoc] at hEvents
  refine ⟨_, hEvents, ?_⟩
  intro event mem
  rcases mem_append.mp mem with item | request
  · exact appendedEvents_silent item
  · exact requests_silent requests event request

theorem quiet_prepareForHistoryOperation (session : AgentSession) (stamps : Nat → EntryStamp) :
    Quiet session (session.prepareForHistoryOperation stamps).1 := by
  obtain ⟨silent, noneWait⟩ := Silent.invalidateSessionWork session.drainPendingInputs.2
  have invalidated : Quiet session session.drainPendingInputs.2.invalidateSessionWork :=
    @Quiet.of_silent session.drainPendingInputs.2 _ silent
  have ended : Quiet session (session.drainPendingInputs.2.interruptLiveTurn stamps) := by
    rw [AgentSession.interruptLiveTurn]
    split
    · exact invalidated
    · apply invalidated.trans
      have noneLeft : (session.drainPendingInputs.2.enqueueAccepted .interrupt).waiting = [] :=
        noneWait
      exact quiet_drive noneLeft stamps
  simp only [AgentSession.prepareForHistoryOperation]
  split <;> exact ended

theorem prepares {before : AgentSession} (reporting : (watched.move before).Reporting)
    (step : before.Prepares after) : (watched.move after).Reporting := by
  have bounded := reporting.bounded.prepares step
  cases step with
  | drained => exact reporting.of_same bounded rfl rfl rfl rfl rfl rfl rfl
  | idle =>
    obtain ⟨silent, noneWait⟩ := Silent.invalidateSessionWork before
    exact reporting.cleared bounded (by rw [AgentSession.invalidateSessionWork_core])
      before.invalidateSessionWork_transcriptStore silent noneWait
      before.invalidateSessionWork_pending
  | @enqueued input noReport =>
    have enqueued := reporting.enqueue input
    rw [inputAccepts_of_queued noReport, toList_none, append_nil] at enqueued
    exact enqueued
  | driven stamps => exact reporting.drive stamps

theorem replaced {prepared : AgentSession} (hPrepared : (watched.move prepared).Reporting)
    (quiet : Quiet watched.session prepared)
    (bounded : after.LedgerBounded) {requests : List SessionEvent}
    (hEvents : after.eventOutbox = prepared.eventOutbox ++ requests)
    (onlyRequests : ∀ event ∈ requests, ∃ action, event = .actionRequested action)
    (noneWait : after.waiting = [])
    (hNodes : after.transcriptStore.nodes = prepared.transcriptStore.nodes) :
    ({ watched with session := after, replacedAt := watched.emitted.length } :
      Watched).Reporting := by
  obtain ⟨more, hMore, silent⟩ := quiet
  have hEmitted : watched.drained ++ after.eventOutbox =
      (watched.move prepared).emitted ++ requests := by
    rw [hEvents, ← append_assoc]
    rfl
  have hLater : watched.drained ++ after.eventOutbox = watched.emitted ++ (more ++ requests) := by
    rw [hEvents, hMore, ← append_assoc, ← append_assoc, ← append_assoc]
    rfl
  refine
    { bounded
      since := ?_
      shown := ?_
      recorded := ?_
      accounted := ⟨[], ⟨?_, by simp⟩, .inl noneWait⟩ }
  · show watched.emitted.length ≤ (watched.drained ++ after.eventOutbox).length
    rw [hLater, length_append]
    exact Nat.le_add_right _ _
  · show ∀ entryId item, _ ∈ watched.drained ++ after.eventOutbox → _
    rw [hEmitted, hNodes]
    intro entryId item mem
    rcases mem_append.mp mem with old | new
    · exact hPrepared.shown entryId item old
    · obtain ⟨action, same⟩ := onlyRequests _ new
      cases same
  · show RecordedFirst _ (watched.drained ++ after.eventOutbox)
    rw [hEmitted]
    exact hPrepared.recorded.append_silent (requests_silent onlyRequests)
  · show OnceEach ((watched.drained ++ after.eventOutbox).drop watched.emitted.length) _ _ _
    rw [hLater, drop_left]
    apply OnceEach.of_numbered _ bounded.numbered
    intro event mem
    rcases mem_append.mp mem with old | new
    · exact silent event old
    · exact requests_silent onlyRequests event new

theorem nodes_of_setActiveLeafToEntry {store moved : TranscriptStore} {leaf : EntryId}
    (isSet : store.setActiveLeafToEntry leaf = .ok moved) : moved.nodes = store.nodes := by
  rw [TranscriptStore.setActiveLeafToEntry] at isSet
  split at isSet
  · rw [← Except.ok.inj isSet]
  · cases isSet

theorem restoreCompactedRuntime (reporting : watched.Reporting) (activeLeafId : EntryId)
    (turnId : TurnId) (actionId : ActionId) :
    (watched.call (.restoreCompactedRuntime activeLeafId turnId actionId)).Reporting := by
  have bounded := reporting.bounded.call (.restoreCompactedRuntime activeLeafId turnId actionId)
  cases hLeaf : watched.session.transcriptStore.setActiveLeafToEntry activeLeafId with
  | error error =>
    have failed : watched.session.restoreCompactedRuntime activeLeafId turnId actionId =
        (watched.session, .error (.store error)) := by
      rw [AgentSession.restoreCompactedRuntime, hLeaf]
    have unchanged : watched.call (.restoreCompactedRuntime activeLeafId turnId actionId) =
        watched := by
      simp [Watched.call, accepts, SessionCall.completion, AgentSession.call,
        AgentSession.replacedBy, failed, Except.isOk, Except.toBool]
    rw [unchanged]
    exact reporting
  | ok transcriptStore =>
    have nothing : Quiet watched.session watched.session := ⟨[], by simp, by simp⟩
    rw [AgentSession.call, AgentSession.restoreCompactedRuntime, hLeaf] at bounded
    have here := replaced reporting nothing bounded (append_nil _).symm (by simp) rfl
      (nodes_of_setActiveLeafToEntry hLeaf)
    simpa [Watched.call, accepts, SessionCall.completion, AgentSession.call,
      AgentSession.replacedBy, AgentSession.restoreCompactedRuntime, hLeaf, Except.isOk,
      Except.toBool] using here

theorem call_eq_move {call : SessionCall} (noCompletion : call.completion watched.emitted.length = none)
    (noDrain : call ≠ .drainEvents) (keeps : watched.session.replacedBy call = false) :
    watched.call call = watched.move (watched.session.call call) := by
  cases call with
  | drainEvents => exact absurd rfl noDrain
  | _ => simp [Watched.call, accepts, noCompletion, keeps]

theorem resumeModelTurn (reporting : watched.Reporting) (checkpointLeafId : EntryId)
    (turnId : TurnId) (actionId : ActionId) (stamps : Nat → EntryStamp) :
    (watched.call (.resumeModelTurn checkpointLeafId turnId actionId stamps)).Reporting := by
  have bounded := reporting.bounded.call (.resumeModelTurn checkpointLeafId turnId actionId stamps)
  have here : (watched.move watched.session).Reporting := reporting
  have prepared := AgentSession.prepareForHistoryOperation_keeps prepares stamps here
  have quiet := quiet_prepareForHistoryOperation watched.session stamps
  have failed : ∀ session error, (watched.move session).Reporting →
      watched.session.resumeModelTurn checkpointLeafId turnId actionId stamps =
        (session, .error error) →
      (watched.call (.resumeModelTurn checkpointLeafId turnId actionId stamps)).Reporting := by
    intro session error holds result
    rw [call_eq_move rfl (by simp) (by rw [AgentSession.replacedBy, result]; rfl),
      AgentSession.call, result]
    exact holds
  by_cases contains : watched.session.transcriptStore.containsEntry checkpointLeafId
  · rcases hPrepare : watched.session.prepareForHistoryOperation stamps with ⟨session, error | queued⟩
    · rw [hPrepare] at prepared
      apply failed session error prepared
      rw [AgentSession.resumeModelTurn, contains, hPrepare]
      rfl
    · rw [hPrepare] at prepared quiet
      cases hLeaf : session.transcriptStore.setActiveLeafToEntry checkpointLeafId with
      | error error =>
        apply failed _ (.store error) (AgentSession.restoreQueuedUserInputs_keeps prepares
          (AgentSession.queued_of_prepared hPrepare) prepared)
        simp only [AgentSession.resumeModelTurn, contains, hPrepare, hLeaf]
        rfl
      | ok transcriptStore =>
        simp only [AgentSession.call, AgentSession.resumeModelTurn, contains, hPrepare, hLeaf,
          Bool.not_true, Bool.false_eq_true, ↓reduceIte] at bounded
        have here := replaced prepared quiet bounded rfl (by simp) rfl
          (nodes_of_setActiveLeafToEntry hLeaf)
        simpa [Watched.call, accepts, SessionCall.completion, AgentSession.call,
          AgentSession.replacedBy, AgentSession.resumeModelTurn, contains, hPrepare, hLeaf,
          Except.isOk, Except.toBool] using here
  · apply failed watched.session (.store .entryNotFound) reporting
    simp [AgentSession.resumeModelTurn, contains]

/-- Every call keeps the account of what was reported. -/
theorem call (reporting : watched.Reporting) (call : SessionCall) :
    (watched.call call).Reporting := by
  have plain : ∀ call : SessionCall, (watched.move (watched.session.call call)).Reporting →
      call.completion watched.emitted.length = none → call ≠ .drainEvents →
      watched.session.replacedBy call = false → (watched.call call).Reporting := by
    intro call holds noCompletion noDrain keeps
    rw [call_eq_move noCompletion noDrain keeps]
    exact holds
  cases call with
  | enqueueInput input =>
    have enqueued := reporting.enqueue input
    cases input with
    | modelCompleted => exact plain _ reporting rfl (by simp) rfl
    | _ =>
      exact enqueued
  | enqueueSessionInput input stamps =>
    cases input with
    | modelCompleted actionId turnId assistant =>
      exact reporting.enqueue (.modelCompleted actionId turnId assistant)
    | modelMaxOutputTokens actionId turnId assistant providerReplay error =>
      exact reporting.cutOff actionId turnId assistant providerReplay error stamps
  | drive stamps => exact plain _ (reporting.drive stamps) rfl (by simp) rfl
  | drainPendingInputs =>
    exact plain _ (reporting.of_same reporting.bounded.drainPendingInputs rfl rfl rfl rfl rfl rfl
      rfl) rfl (by simp) rfl
  | drainActions =>
    have bounded : watched.session.drainActions.2.LedgerBounded :=
      ⟨reporting.bounded.noActions, reporting.bounded.noItems, reporting.bounded.bounded⟩
    exact plain _ (reporting.of_same bounded rfl rfl rfl rfl rfl rfl rfl) rfl (by simp) rfl
  | drainEvents =>
    have hEmitted : (watched.call .drainEvents).emitted = watched.emitted := by
      simp [Watched.call, emitted, AgentSession.call, AgentSession.drainEvents]
    have hAccepted : (watched.call .drainEvents).accepted = watched.accepted := by
      simp [Watched.call, accepts, SessionCall.completion]
    have hCurrent : (watched.call .drainEvents).current = watched.current := by
      rw [current, hEmitted]
      rfl
    obtain ⟨waiting, ⟨once, known⟩, hWaiting⟩ := reporting.accounted
    refine
      { bounded :=
          ⟨reporting.bounded.noActions, reporting.bounded.noItems, reporting.bounded.bounded⟩
        since := by rw [hEmitted]; exact reporting.since
        shown := by rw [hEmitted]; exact reporting.shown
        recorded := by rw [hEmitted, hAccepted]; exact reporting.recorded
        accounted := ⟨waiting, ⟨?_, ?_⟩, ?_⟩ }
    · rw [hCurrent]
      exact once
    · rw [hEmitted, hAccepted]
      exact known
    · rcases hWaiting with same | ⟨actionId, turnId, hWaiting, stranded⟩
      · exact .inl same
      · exact .inr ⟨actionId, turnId, hWaiting, stranded.running, stranded.settled,
          stranded.quiet, stranded.nothing⟩
  | resumeModelTurn checkpointLeafId turnId actionId stamps =>
    exact reporting.resumeModelTurn checkpointLeafId turnId actionId stamps
  | restoreCompactedRuntime activeLeafId turnId actionId =>
    exact reporting.restoreCompactedRuntime activeLeafId turnId actionId

end Reporting

theorem runs_reporting {watched : Watched} (reaches : runs.Reaches watched) : watched.Reporting := by
  apply reaches.invariant
  · rintro watched rfl
    refine
      { bounded := AgentSession.Constructed.ledgerBounded .new
        since := Nat.le_refl 0
        shown := by simp [start, emitted, AgentSession.new]
        recorded := by
          intro before event after split
          cases before <;> cases split
        accounted := ⟨[], ⟨.of_numbered ?_ ⟨nodup_nil, by simp [start, AgentSession.new]⟩,
          by simp⟩, .inl rfl⟩ }
    simp [start, current, emitted, AgentSession.new]
  · rintro watched call after _ reporting rfl
    exact reporting.call call

end Watched

end PiRelay.Session
