import PiRelay.AgentSession.AppendedEntries
import PiRelay.AgentSession.LedgerBound

/-! The events that report the end of an action. A completion is accepted before
the core has seen it, and its event is held back until the transcript shows it.
Runs are watched here together with every event they emitted and every completion
they accepted. -/
namespace PiRelay.Session

open AgentVocab AgentCore List
open Library (Machine)

inductive CompletionContent where
  | message (assistant : AssistantMessage)
  | failure (error : String)
  | result (result : ToolResultMessage)
  | cutOff (assistant : AssistantMessage) (error : String)

/-- A completion the session accepted, and how many events had been emitted then. -/
structure AcceptedCompletion where
  actionId : ActionId
  turnId : TurnId
  content : CompletionContent
  mark : Nat

namespace AcceptedCompletion

variable (completion : AcceptedCompletion)

def target : CompletionTarget where
  actionId := completion.actionId
  turnId := completion.turnId
  tool :=
    match completion.content with
    | .result result => some { id := result.toolCallId, name := result.toolName }
    | .message _ | .failure _ | .cutOff _ _ => none

def event : SessionEvent :=
  match completion.content with
  | .message _ => .actionCompleted .model (toString completion.actionId)
  | .failure error | .cutOff _ error => .actionFailed .model (toString completion.actionId) error
  | .result _ => .actionCompleted .tool (toString completion.actionId)

def recordedBy (item : TranscriptItem) : Bool :=
  match completion.content with
  | .message assistant => item == .assistantMessage assistant
  | .failure _ | .cutOff _ _ => item == .turnFinished completion.turnId .crashed
  | .result result =>
    match item with
    | .toolResult shown =>
      shown.toolCallId == result.toolCallId && shown.toolName == result.toolName
    | _ => false

/-- What the ledger keeps of the completion until its event is due. -/
def recorded : Option RecordedCompletion :=
  match completion.content with
  | .message _ => some (.modelCompleted completion.actionId completion.turnId)
  | .failure error => some (.modelFailed completion.actionId completion.turnId error)
  | .result result =>
    some (.toolCompleted completion.actionId completion.turnId result.toolCallId result.toolName)
  | .cutOff _ _ => none

def fromInput (mark : Nat) : AgentInput → Option AcceptedCompletion
  | .modelCompleted actionId turnId assistant =>
    some { actionId, turnId, content := .message assistant, mark }
  | .modelFailed actionId turnId error => some { actionId, turnId, content := .failure error, mark }
  | .toolCompleted actionId turnId result =>
    some { actionId, turnId, content := .result result, mark }
  | .interrupt | .steer _ | .followUp _ | .daemonObservation _ => none

variable {completion : AcceptedCompletion} {recorded : RecordedCompletion}

theorem target_of_recorded (hRecorded : completion.recorded = some recorded) :
    recorded.target = completion.target := by
  obtain ⟨_, _, content, _⟩ := completion
  cases content with
  | cutOff => cases hRecorded
  | _ =>
    cases hRecorded
    rfl

theorem event_of_recorded (hRecorded : completion.recorded = some recorded) :
    recorded.sessionEvent = completion.event := by
  obtain ⟨_, _, content, _⟩ := completion
  cases content with
  | cutOff => cases hRecorded
  | _ =>
    cases hRecorded
    rfl

theorem recorded_of_fromInput {mark : Nat} {input : AgentInput}
    (hInput : fromInput mark input = some completion) :
    ∃ recorded, RecordedCompletion.fromInput input = some recorded ∧
      completion.recorded = some recorded ∧ completion.mark = mark := by
  cases input with
  | modelCompleted | modelFailed | toolCompleted =>
    cases hInput
    exact ⟨_, rfl, rfl, rfl⟩
  | _ => cases hInput

theorem fromInput_of_recorded {input : AgentInput}
    (hInput : RecordedCompletion.fromInput input = some recorded) (mark : Nat) :
    ∃ completion, fromInput mark input = some completion ∧
      completion.recorded = some recorded ∧ completion.mark = mark := by
  cases input with
  | modelCompleted | modelFailed | toolCompleted =>
    cases hInput
    exact ⟨_, rfl, rfl, rfl⟩
  | _ => cases hInput

end AcceptedCompletion

namespace SessionEvent

def isReport : SessionEvent → Bool
  | .actionCompleted _ _ | .actionFailed _ _ _ => true
  | .transcriptItemAppended _ _ | .actionRequested _ => false

def reports (actionId : ActionId) : SessionEvent → Bool
  | .actionCompleted _ id | .actionFailed _ id _ => id == toString actionId
  | .transcriptItemAppended _ _ | .actionRequested _ => false

theorem reports_eq_false {event : SessionEvent} (silent : event.isReport = false)
    (actionId : ActionId) : event.reports actionId = false := by
  cases event with
  | actionCompleted | actionFailed => cases silent
  | transcriptItemAppended | actionRequested => rfl

theorem toString_actionId_beq (first second : ActionId) :
    (toString first == toString second) = (first == second) := by
  rw [Bool.eq_iff_iff, beq_iff_eq, beq_iff_eq]
  refine ⟨fun same => ?_, fun same => same ▸ rfl⟩
  have digits : Nat.toDigits 10 first = Nat.toDigits 10 second := by
    rw [← Nat.toList_repr, ← Nat.toList_repr]
    exact congrArg String.toList same
  rw [← @Nat.ofDigitChars_ten_toDigits first, digits, Nat.ofDigitChars_ten_toDigits]

theorem reports_sessionEvent (completion : RecordedCompletion) (actionId : ActionId) :
    completion.sessionEvent.reports actionId = (completion.target.actionId == actionId) := by
  cases completion <;> exact toString_actionId_beq _ _

theorem countP_reports_of_silent {events : List SessionEvent}
    (silent : ∀ event ∈ events, event.isReport = false) (actionId : ActionId) :
    events.countP (·.reports actionId) = 0 := by
  rw [countP_eq_zero]
  intro event mem
  rw [reports_eq_false (silent event mem)]
  exact Bool.false_ne_true

end SessionEvent

/-- A run of a session: the events drained so far, the completions accepted, and
how many events had been emitted when its runtime was last replaced. -/
structure Watched where
  session : AgentSession
  drained : List SessionEvent
  accepted : List AcceptedCompletion
  replacedAt : Nat

/-- The completion a call brings. A model message is only taken as a session input. -/
def SessionCall.completion (mark : Nat) : SessionCall → Option AcceptedCompletion
  | .enqueueInput (.modelCompleted _ _ _) => none
  | .enqueueInput input => AcceptedCompletion.fromInput mark input
  | .enqueueSessionInput (.modelCompleted actionId turnId assistant) _ =>
    AcceptedCompletion.fromInput mark (.modelCompleted actionId turnId assistant)
  | .enqueueSessionInput (.modelMaxOutputTokens actionId turnId assistant _ error) _ =>
    some { actionId, turnId, content := .cutOff assistant error, mark }
  | .drive _ | .drainPendingInputs | .drainActions | .drainEvents | .resumeModelTurn _ _ _ _
  | .restoreCompactedRuntime _ _ _ => none

variable (session : AgentSession)

/-- The call puts another runtime in place. -/
def AgentSession.replacedBy : SessionCall → Bool
  | .resumeModelTurn checkpointLeafId turnId actionId stamps =>
    (session.resumeModelTurn checkpointLeafId turnId actionId stamps).2.isOk
  | .restoreCompactedRuntime activeLeafId turnId actionId =>
    (session.restoreCompactedRuntime activeLeafId turnId actionId).2.isOk
  | _ => false

namespace Watched

def start : Watched where
  session := .new
  drained := []
  accepted := []
  replacedAt := 0

def emitted (watched : Watched) : List SessionEvent := watched.drained ++ watched.session.eventOutbox

/-- The events emitted under the present runtime. -/
def current (watched : Watched) : List SessionEvent := watched.emitted.drop watched.replacedAt

def accepts (watched : Watched) (call : SessionCall) : Option AcceptedCompletion :=
  (call.completion watched.emitted.length).filter
    fun completion => watched.session.outstandingActions.pending.contains completion.target

def call (watched : Watched) (call : SessionCall) : Watched where
  session := watched.session.call call
  drained :=
    match call with
    | .drainEvents => watched.drained ++ watched.session.eventOutbox
    | _ => watched.drained
  accepted := watched.accepted ++ (watched.accepts call).toList
  replacedAt := if watched.session.replacedBy call then watched.emitted.length else watched.replacedAt

def runs : Machine Watched SessionCall := .ofCalls (· = start) call

end Watched

def issued (events : List SessionEvent) (waiting : List RecordedCompletion)
    (pending : List CompletionTarget) (actionId : ActionId) : Nat :=
  events.countP (·.reports actionId) + waiting.countP (·.target.actionId == actionId)
    + pending.countP (·.actionId == actionId)

/-- Every action is in one of the three places at most, and only once it has its
id. -/
structure OnceEach (events : List SessionEvent) (waiting : List RecordedCompletion)
    (pending : List CompletionTarget) (next : ActionId) : Prop where
  once : ∀ actionId, issued events waiting pending actionId ≤ 1
  unused : ∀ actionId, next ≤ actionId → issued events waiting pending actionId = 0

theorem Numbered.countP_le_one {targets : List CompletionTarget} {next : ActionId}
    (numbered : Numbered targets next) (actionId : ActionId) :
    targets.countP (·.actionId == actionId) ≤ 1 := by
  have counted : targets.countP (·.actionId == actionId) =
      (targets.map (·.actionId)).count actionId := by
    rw [List.count, countP_map]
    rfl
  rw [counted]
  exact nodup_iff_count_le_one.mp numbered.distinct actionId

theorem Numbered.countP_unused {targets : List CompletionTarget} {next : ActionId}
    (numbered : Numbered targets next) {actionId : ActionId} (unused : next ≤ actionId) :
    targets.countP (·.actionId == actionId) = 0 := by
  rw [countP_eq_zero]
  intro target mem same
  have used := numbered.used target mem
  rw [beq_iff_eq.mp same] at used
  exact absurd used (Nat.not_lt.mpr unused)

namespace OnceEach

variable {events : List SessionEvent} {waiting : List RecordedCompletion}
  {pending : List CompletionTarget} {next : ActionId}

theorem mono (each : OnceEach events waiting pending next) {events' : List SessionEvent}
    {waiting' : List RecordedCompletion} {pending' : List CompletionTarget}
    (fewer : ∀ actionId, issued events' waiting' pending' actionId ≤
      issued events waiting pending actionId) : OnceEach events' waiting' pending' next where
  once := fun actionId => Nat.le_trans (fewer actionId) (each.once actionId)
  unused := fun actionId unused =>
    Nat.le_zero.mp (each.unused actionId unused ▸ fewer actionId)

theorem of_numbered (silent : ∀ event ∈ events, event.isReport = false)
    (numbered : Numbered pending next) : OnceEach events [] pending next where
  once := by
    intro actionId
    rw [issued, SessionEvent.countP_reports_of_silent silent]
    simpa using numbered.countP_le_one actionId
  unused := by
    intro actionId unused
    rw [issued, SessionEvent.countP_reports_of_silent silent, numbered.countP_unused unused]
    rfl

section

variable (each : OnceEach events waiting pending next)
include each

theorem accept {completion : RecordedCompletion} (isPending : completion.target ∈ pending) :
    OnceEach events (waiting ++ [completion]) (pending.erase completion.target) next := by
  apply each.mono
  intro actionId
  have split : pending.countP (·.actionId == actionId) =
      (completion.target :: pending.erase completion.target).countP (·.actionId == actionId) :=
    (perm_cons_erase isPending).countP_eq _
  rw [issued, issued, split, countP_append, countP_singleton, countP_cons]
  omega

theorem report {target : CompletionTarget} (isPending : target ∈ pending) {event : SessionEvent}
    {silent : List SessionEvent} (quiet : ∀ event ∈ silent, event.isReport = false)
    (reports : ∀ actionId, event.reports actionId = (target.actionId == actionId)) :
    OnceEach (events ++ silent ++ [event]) waiting (pending.erase target) next := by
  apply each.mono
  intro actionId
  have split : pending.countP (·.actionId == actionId) =
      (target :: pending.erase target).countP (·.actionId == actionId) :=
    (perm_cons_erase isPending).countP_eq _
  rw [issued, issued, split, countP_append, countP_append, countP_singleton,
    countP_cons, SessionEvent.countP_reports_of_silent quiet, reports]
  omega

theorem drive {shown : RecordedCompletion → Bool} {before after : List SessionEvent}
    (quietBefore : ∀ event ∈ before, event.isReport = false)
    (quietAfter : ∀ event ∈ after, event.isReport = false) {kept : List RecordedCompletion}
    (sub : kept.Sublist (waiting.filter fun completion => !shown completion))
    {pending' : List CompletionTarget} {next' : ActionId} (numbered : Numbered pending' next')
    (old : ∀ actionId < next, pending'.countP (·.actionId == actionId) ≤
      pending.countP (·.actionId == actionId)) (grows : next ≤ next') :
    OnceEach (events ++ before ++ (waiting.filter shown).map RecordedCompletion.sessionEvent ++ after)
      kept pending' next' := by
  have reported : ∀ actionId, issued
      (events ++ before ++ (waiting.filter shown).map RecordedCompletion.sessionEvent ++ after)
      kept pending' actionId ≤ events.countP (·.reports actionId)
        + waiting.countP (·.target.actionId == actionId)
        + pending'.countP (·.actionId == actionId) := by
    intro actionId
    have emitted : ((waiting.filter shown).map RecordedCompletion.sessionEvent).countP
        (·.reports actionId) = (waiting.filter shown).countP (·.target.actionId == actionId) := by
      rw [countP_map]
      congr 1
      funext completion
      exact SessionEvent.reports_sessionEvent completion actionId
    have left : kept.countP (·.target.actionId == actionId) ≤
        (waiting.filter fun completion => !shown completion).countP
          (·.target.actionId == actionId) := sub.countP_le
    have all : waiting.countP (·.target.actionId == actionId) =
        (waiting.filter shown).countP (·.target.actionId == actionId)
          + (waiting.filter fun completion => !shown completion).countP
              (·.target.actionId == actionId) := by
      rw [countP_eq_countP_filter_add waiting (·.target.actionId == actionId) shown]
    rw [issued, countP_append, countP_append, countP_append, emitted,
      SessionEvent.countP_reports_of_silent quietBefore,
      SessionEvent.countP_reports_of_silent quietAfter]
    omega
  constructor
  · intro actionId
    have here := reported actionId
    rcases Nat.lt_or_ge actionId next with used | unused
    · have once := each.once actionId
      have fewer := old actionId used
      rw [issued] at once
      omega
    · have none := each.unused actionId unused
      have atMost := numbered.countP_le_one actionId
      rw [issued] at none
      omega
  · intro actionId unused
    have here := reported actionId
    have none := each.unused actionId (Nat.le_trans grows unused)
    rw [numbered.countP_unused unused] at here
    rw [issued] at none
    omega

end

end OnceEach

theorem tracked_drive (pending : List CompletionTarget) (loop : AgentCoreLoop) :
    loop.nextActionId ≤ loop.drive.nextActionId ∧ ∀ actionId < loop.nextActionId,
      (tracked pending loop.drive.actionOutbox).countP (·.actionId == actionId) ≤
        (tracked pending loop.actionOutbox).countP (·.actionId == actionId) := by
  refine AgentCoreLoop.driveLoop.run_invariant (motive := fun current =>
    loop.nextActionId ≤ current.nextActionId ∧ ∀ actionId < loop.nextActionId,
      (tracked pending current.actionOutbox).countP (·.actionId == actionId) ≤
        (tracked pending loop.actionOutbox).countP (·.actionId == actionId)) ?_
    ⟨Nat.le_refl _, fun _ _ => Nat.le_refl _⟩
  rintro current ⟨grows, old⟩
  have unchanged : ∀ mailbox, loop.nextActionId ≤ (current.apply mailbox
      (emptyTransition current.state current.nextActionId)).nextActionId ∧
      ∀ actionId < loop.nextActionId, (tracked pending (current.apply mailbox
        (emptyTransition current.state current.nextActionId)).actionOutbox).countP
          (·.actionId == actionId) ≤
        (tracked pending loop.actionOutbox).countP (·.actionId == actionId) := by
    intro mailbox
    simpa [AgentCoreLoop.apply, emptyTransition] using ⟨grows, old⟩
  obtain ⟨transition, hOnce, rfl | ⟨_, _, fires⟩⟩ := current.driveOnce_cases
  · have hBody : (AgentCoreLoop.driveLoop.body current).1 = _ := hOnce
    rw [hBody]
    exact unchanged _
  · have hBody : (AgentCoreLoop.driveLoop.body current).1 = _ := hOnce
    obtain ⟨taken, hIds, hNext⟩ := fires.actionIds
    rw [hBody, AgentCoreLoop.apply]
    constructor
    · show loop.nextActionId ≤ transition.nextActionId
      rw [hNext]
      exact Nat.le_trans grows (Nat.le_add_right _ _)
    · intro actionId used
      have sent : (transition.actions.filterMap CompletionTarget.fromCoreAction).countP
          (·.actionId == actionId) = 0 := by
        rw [countP_eq_zero]
        intro target mem same
        have listed : target.actionId ∈ List.range' current.nextActionId taken := by
          rw [← hIds, ← filterMap_fromCoreAction_actionId]
          exact mem_map_of_mem mem
        rw [beq_iff_eq.mp same] at listed
        exact absurd (Nat.le_trans grows (mem_range'_1.mp listed).1) (Nat.not_le.mpr used)
      have appended := (tracked_sublist (tracked pending current.actionOutbox)
        transition.actions).countP_le (p := (·.actionId == actionId))
      rw [countP_append, sent] at appended
      rw [tracked_append]
      exact Nat.le_trans appended (old actionId used)

abbrev AgentSession.waiting (session : AgentSession) : List RecordedCompletion :=
  session.outstandingActions.completionEventsPendingTranscript

/-- A part of a call that reports nothing: it adds requests to the events, and no
completion to those that wait. -/
structure Silent (before after : AgentSession) : Prop where
  requests : ∃ more, after.eventOutbox = before.eventOutbox ++ more ∧
    ∀ event ∈ more, ∃ action, event = .actionRequested action
  waiting : after.waiting.Sublist before.waiting

namespace Silent

variable {first second third : AgentSession}

theorem refl : Silent session session :=
  ⟨⟨[], by simp, by simp⟩, List.Sublist.refl _⟩

theorem trans (left : Silent first second) (right : Silent second third) : Silent first third := by
  obtain ⟨more, hMore, requests⟩ := left.requests
  obtain ⟨others, hOthers, otherRequests⟩ := right.requests
  refine ⟨⟨more ++ others, by rw [hOthers, hMore, append_assoc], ?_⟩,
    right.waiting.trans left.waiting⟩
  intro event mem
  rcases mem_append.mp mem with old | new
  · exact requests event old
  · exact otherRequests event new

theorem invalidateSessionWork :
    Silent session session.invalidateSessionWork ∧ session.invalidateSessionWork.waiting = [] := by
  rw [AgentSession.invalidateSessionWork, AgentSession.queueSessionAction]
  split
  · exact ⟨⟨⟨[_], rfl, by simp⟩, nil_sublist _⟩, rfl⟩
  · exact ⟨⟨⟨[], by simp, by simp⟩, nil_sublist _⟩, rfl⟩

theorem drainCoreAction (action : AgentAction) :
    Silent session (session.drainCoreAction action) := by
  cases action with
  | cancelTurn => exact (invalidateSessionWork session).1
  | requestModel | requestTool => exact ⟨⟨[_], rfl, by simp⟩, List.Sublist.refl _⟩

theorem foldl_drainCoreAction (actions : List AgentAction) (session : AgentSession) :
    Silent session (actions.foldl AgentSession.drainCoreAction session) := by
  induction actions generalizing session with
  | nil => exact refl session
  | cons action _ ih => exact (drainCoreAction session action).trans (ih _)

end Silent

namespace AgentSession

/-- The events of a drive: items, completions, requests. -/
theorem drive_events (stamps : Nat → EntryStamp) :
    ∃ more, (∀ event ∈ more, ∃ action, event = .actionRequested action) ∧
      (session.drive stamps).eventOutbox = session.eventOutbox
        ++ appendedEvents session.core.drive.transcriptItemOutbox stamps
        ++ (session.waiting.filter
            (·.acceptedBy session.core.drive.transcriptItemOutbox)).map
              RecordedCompletion.sessionEvent
        ++ more ∧
      (session.drive stamps).waiting.Sublist
        (session.waiting.filter fun completion =>
          !completion.acceptedBy session.core.drive.transcriptItemOutbox
            && completion.shouldWaitForMoreItems session.core.drive.transcriptItemOutbox
              session.outstandingActions.pending) := by
  have silent : Silent (({ session with core := session.core.drive }).drainCoreTranscriptItems stamps)
      (session.drive stamps) := by
    have folded := Silent.foldl_drainCoreAction session.core.drive.actionOutbox
      { ({ session with core := session.core.drive }).drainCoreTranscriptItems stamps with
        core := { session.core.drive with actionOutbox := [], transcriptItemOutbox := [] } }
    exact ⟨folded.requests, folded.waiting⟩
  obtain ⟨more, hMore, requests⟩ := silent.requests
  exact ⟨more, requests, hMore, silent.waiting⟩

end AgentSession

theorem appendedEvents_cons (item : TranscriptItem) (rest : List TranscriptItem)
    (stamps : Nat → EntryStamp) :
    AgentSession.appendedEvents (item :: rest) stamps =
      .transcriptItemAppended (stamps 0).id item
        :: AgentSession.appendedEvents rest fun draw => stamps (draw + 1) := by
  simp [AgentSession.appendedEvents, mapIdx_cons]

variable {items : List TranscriptItem}

theorem appendedEvents_silent {stamps : Nat → EntryStamp} {event : SessionEvent}
    (mem : event ∈ AgentSession.appendedEvents items stamps) : event.isReport = false := by
  induction items generalizing stamps with
  | nil => cases mem
  | cons _ _ ih =>
    rw [appendedEvents_cons] at mem
    rcases mem_cons.mp mem with rfl | later
    · rfl
    · exact ih later

theorem appendedEvents_entry {stamps : Nat → EntryStamp} {leafId : Option EntryId}
    {entryId : EntryId} {item : TranscriptItem}
    (mem : .transcriptItemAppended entryId item ∈ AgentSession.appendedEvents items stamps) :
    ∃ node ∈ appendedNodes leafId items stamps, node.id = entryId ∧ node.item = item := by
  induction items generalizing stamps leafId with
  | nil => cases mem
  | cons _ rest ih =>
    rw [appendedEvents_cons] at mem
    rcases mem_cons.mp mem with same | later
    · injection same with hId hItem
      exact ⟨_, .head _, hId.symm, hItem.symm⟩
    · obtain ⟨node, found, named⟩ : ∃ node ∈ appendedNodes (some (stamps 0).id) rest
          (fun draw => stamps (draw + 1)), node.id = entryId ∧ node.item = item := ih later
      exact ⟨node, .tail _ found, named⟩

theorem mem_appendedEvents {item : TranscriptItem} (mem : item ∈ items)
    (stamps : Nat → EntryStamp) :
    ∃ entryId, .transcriptItemAppended entryId item ∈ AgentSession.appendedEvents items stamps := by
  induction items generalizing stamps with
  | nil => cases mem
  | cons _ _ ih =>
    rw [appendedEvents_cons]
    rcases mem_cons.mp mem with rfl | later
    · exact ⟨_, .head _⟩
    · obtain ⟨entryId, found⟩ := ih later fun draw => stamps (draw + 1)
      exact ⟨entryId, .tail _ found⟩

/-- Every report is of an accepted completion, and between the two stands the
event of the item that records it. -/
def RecordedFirst (accepted : List AcceptedCompletion) (emitted : List SessionEvent) : Prop :=
  ∀ before event after, emitted = before ++ event :: after → event.isReport = true →
    ∃ completion ∈ accepted, completion.event = event ∧ ∃ entryId item,
      .transcriptItemAppended entryId item ∈ before.drop completion.mark ∧
        completion.recordedBy item = true

namespace RecordedFirst

variable {accepted : List AcceptedCompletion} {emitted more : List SessionEvent}

section

variable (first : RecordedFirst accepted emitted)
include first

theorem append
    (new : ∀ before event after, more = before ++ event :: after → event.isReport →
      ∃ completion ∈ accepted, completion.event = event ∧ ∃ entryId item,
        .transcriptItemAppended entryId item ∈ (emitted ++ before).drop completion.mark ∧
          completion.recordedBy item) : RecordedFirst accepted (emitted ++ more) := by
  intro before event after split report
  rcases append_eq_append_iff.mp split with ⟨front, hBefore, hMore⟩ | ⟨back, hEmitted, hRest⟩
  · rw [hBefore]
    exact new front event after hMore report
  · cases back with
    | nil =>
      rw [append_nil] at hEmitted
      have here := new [] event after hRest.symm report
      rw [append_nil, hEmitted] at here
      exact here
    | cons _ rest =>
      injection hRest with hHead _
      subst hHead
      exact first before event rest hEmitted report

theorem append_silent (silent : ∀ event ∈ more, event.isReport = false) :
    RecordedFirst accepted (emitted ++ more) := by
  apply first.append
  intro before event after split report
  have quiet := silent event (split ▸ mem_append_right _ (.head _))
  rw [quiet] at report
  cases report

theorem accept (others : List AcceptedCompletion) : RecordedFirst (accepted ++ others) emitted := by
  intro before event after split report
  obtain ⟨completion, mem, rest⟩ := first before event after split report
  exact ⟨completion, mem_append_left _ mem, rest⟩

end

end RecordedFirst

theorem requests_silent {more : List SessionEvent}
    (requests : ∀ event ∈ more, ∃ action, event = .actionRequested action) :
    ∀ event ∈ more, event.isReport = false := by
  intro event mem
  obtain ⟨action, rfl⟩ := requests event mem
  rfl

end PiRelay.Session
