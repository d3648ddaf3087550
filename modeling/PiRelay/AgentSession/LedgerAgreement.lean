import PiRelay.AgentSession.Runs

/-! The ledger of a session and the core agree on the requests in flight. An
accepted completion leaves the ledger when it is enqueued and reaches the core at
the next drive; an interrupt clears the ledger when it is enqueued and cancels the
turn at the next drive. In between, what the core waits for is what the ledger
holds together with what lies in the mailbox. -/
namespace PiRelay.Session

open AgentVocab AgentCore AgentCoreLoop List
open Library (Machine)

variable (pending : List CompletionTarget)

def trackAction : AgentAction → List CompletionTarget
  | .cancelTurn _ => []
  | action => pending ++ (CompletionTarget.fromCoreAction action).toList

def tracked (actions : List AgentAction) :
    List CompletionTarget := actions.foldl trackAction pending

theorem tracked_append (first second : List AgentAction) :
    tracked pending (first ++ second) = tracked (tracked pending first) second := by
  simp [tracked]

theorem tracked_of_requests {actions : List AgentAction}
    (requests : ∀ turnId, .cancelTurn turnId ∉ actions) :
    tracked pending actions = pending ++ actions.filterMap CompletionTarget.fromCoreAction := by
  induction actions generalizing pending with
  | nil => simp [tracked]
  | cons action rest ih =>
    have others : ∀ turnId, .cancelTurn turnId ∉ rest :=
      fun turnId hRest => requests turnId (.tail _ hRest)
    rw [tracked, foldl_cons, ← tracked, ih _ others]
    cases action with
    | cancelTurn turnId => exact absurd (.head _) (requests turnId)
    | requestModel | requestTool => simp [trackAction, CompletionTarget.fromCoreAction]

namespace AgentSession

theorem drainCoreAction_pending (session : AgentSession) (action : AgentAction) :
    (session.drainCoreAction action).outstandingActions.pending =
      trackAction session.outstandingActions.pending action := by
  cases action with
  | cancelTurn => exact session.invalidateSessionWork_pending
  | requestModel | requestTool => rfl

theorem foldl_drainCoreAction_pending (actions : List AgentAction) (session : AgentSession) :
    (actions.foldl drainCoreAction session).outstandingActions.pending =
      tracked session.outstandingActions.pending actions := by
  induction actions generalizing session with
  | nil => rfl
  | cons _ _ ih => rw [foldl_cons, ih, drainCoreAction_pending]; rfl

theorem drive_pending (session : AgentSession) (stamps : Nat → EntryStamp) :
    (session.drive stamps).outstandingActions.pending =
      tracked session.outstandingActions.pending session.core.drive.actionOutbox := by
  rw [drive, drainCoreActions]
  rw [foldl_drainCoreAction_pending]
  rfl

end AgentSession

def notifiedTargets (mailbox : Mailbox) : List CompletionTarget :=
  mailbox.notifications.filterMap AgentEvent.target

variable {event : AgentEvent}

/-- A completion is ignored once the turn is over. -/
theorem ignored_of_ending {mailbox : Mailbox} {state : AgentState}
    {target : CompletionTarget} (ending : mailbox.interruptRequested ∨ state = .idle)
    (quiet : (mailbox.interruptRequested && state.isActive) = false)
    (hTarget : event.target = some target) (next : ActionId) :
    state = .idle ∧ state.step event next = emptyTransition state next := by
  have idle : state = .idle := by
    rcases ending with requested | idle
    · cases state with
      | idle => rfl
      | _ => simp [requested, AgentState.isActive] at quiet
    · exact idle
  refine ⟨idle, ?_⟩
  rcases state.step_completion hTarget next with ⟨_, ignored⟩ | ⟨acts, _⟩
  · exact ignored
  · rw [idle] at acts
    cases acts

theorem sent_notified_swap (ledger sent notified : List CompletionTarget) :
    (ledger ++ sent ++ notified).Perm (ledger ++ notified ++ sent) := by
  rw [append_assoc, append_assoc]
  exact perm_append_comm.append_left ledger

/-- Either ledger and mailbox together hold what the core waits for, or the ledger
is empty and the turn is over or about to be interrupted. -/
inductive Balanced (ledger : List CompletionTarget) (mailbox : Mailbox) (state : AgentState) :
    Prop where
  | live (quiet : mailbox.interruptRequested = false)
      (accounts : (ledger ++ notifiedTargets mailbox).Perm state.waitsFor)
  | cleared (empty : ledger = []) (ending : mailbox.interruptRequested = true ∨ state = .idle)

namespace Balanced

variable {ledger : List CompletionTarget} {mailbox after : Mailbox} {state : AgentState}
  {turnId nextTurnId : TurnId}

theorem ledger_nil (balanced : Balanced ledger mailbox state) (rests : state.waitsFor = []) :
    ledger = [] := by
  cases balanced with
  | live _ accounts =>
    rw [rests] at accounts
    exact (append_eq_nil_iff.mp accounts.eq_nil).1
  | cleared empty => exact empty

theorem requestModel (items : List TranscriptItem) (next : ActionId) (hLedger : ledger = [])
    (quiet : after.interruptRequested = false) (settled : after.notifications = []) :
    Balanced (tracked ledger (AgentCore.requestModel turnId items next).actions) after
      (AgentCore.requestModel turnId items next).state := by
  subst hLedger
  apply live quiet
  rw [notifiedTargets, settled]
  exact List.Perm.refl _

theorem interrupt (balanced : Balanced ledger mailbox state)
    (requested : mailbox.interruptRequested) (next : ActionId) :
    Balanced (tracked ledger (state.step .interrupt next).actions) after
      (state.step .interrupt next).state := by
  cases balanced with
  | live quiet => rw [quiet] at requested; cases requested
  | cleared empty =>
    subst empty
    cases state <;> exact cleared rfl (.inr rfl)

variable {event : AgentEvent}

theorem actions_of_completion {next : ActionId} {transition : Transition}
    (fires : AgentState.Fires next state event transition) (completion : event.isCompletion)
    (pending : List CompletionTarget) :
    tracked pending transition.actions =
      pending ++ transition.actions.filterMap CompletionTarget.fromCoreAction := by
  apply tracked_of_requests
  intro turnId hCancel
  cases fires with
  | finish | fail | recordResult => cases hCancel
  | startTools =>
    rw [startTools_actions] at hCancel
    obtain ⟨_, _, hTool⟩ := mem_map.mp hCancel
    cases hTool
  | _ => cases completion

section

variable (balanced : Balanced ledger mailbox state)
include balanced

theorem completion {rest : List AgentEvent} (distinct : state.DistinctCalls)
    (quiet : (mailbox.interruptRequested && state.isActive) = false)
    (hFirst : mailbox.notifications = event :: rest) (hCompletion : event.isCompletion)
    (next : ActionId) :
    Balanced (tracked ledger (state.step event next).actions)
      { mailbox with notifications := rest, interruptRequested := false }
      (state.step event next).state := by
  obtain ⟨target, hTarget⟩ :=
    Option.isSome_iff_exists.mp (AgentEvent.isCompletion_iff_target.mp hCompletion)
  cases balanced with
  | cleared empty ending =>
    obtain ⟨idle, ignored⟩ := ignored_of_ending ending quiet hTarget next
    rw [ignored]
    exact cleared empty (.inr idle)
  | live _ accounts =>
    rw [notifiedTargets, hFirst, filterMap_cons_some hTarget] at accounts
    have acts : state.ActsOn target := by
      rw [AgentState.actsOn_iff_mem_waitsFor distinct]
      apply accounts.subset
      simp
    have fires := AgentState.fires_of_actsOn acts hTarget next
    obtain ⟨front, answered, back, hAnswered, before, hAfter⟩ :=
      fires.waitsFor_completion hCompletion
    cases hTarget.symm.trans hAnswered
    apply live rfl
    rw [actions_of_completion fires hCompletion, hAfter]
    rw [before] at accounts
    have others : (ledger ++ rest.filterMap AgentEvent.target).Perm (front ++ back) := by
      apply List.Perm.cons_inv
      exact (perm_middle.symm.trans accounts).trans perm_middle
    exact (sent_notified_swap ledger _ _).trans (others.append_right _)

theorem takes (only : mailbox.OnlyCompletions) (distinct : state.DistinctCalls)
    (hTakes : mailbox.Takes nextTurnId state (some event) after) (next : ActionId) :
    Balanced (tracked ledger (state.step event next).actions) after
      (state.step event next).state := by
  cases hTakes with
  | interrupt _ requested => exact balanced.interrupt requested next
  | notification quiet hFirst =>
    exact balanced.completion distinct quiet hFirst (only _ (hFirst ▸ mem_cons_self)) next
  | steer quiet settled | daemonObservation quiet settled | continueModel quiet settled
  | startSteer settled | startFollowUp settled | startObservation settled =>
    exact requestModel _ next (balanced.ledger_nil rfl) rfl settled

theorem takes_none (hTakes : mailbox.Takes nextTurnId state none after) :
    Balanced ledger after state := by
  cases hTakes with
  | emptyIdle => exact cleared (balanced.ledger_nil rfl) (.inr rfl)
  | waiting active _ quiet =>
    cases balanced with
    | live _ accounts => exact live rfl accounts
    | cleared _ ending =>
      exfalso
      rcases ending with requested | idle
      · rw [quiet] at requested
        cases requested
      · rw [idle] at active
        cases active

end

end Balanced

/-- The loop within a drive that began with these pending requests. -/
structure Accounts (pending : List CompletionTarget) (loop : AgentCoreLoop) : Prop where
  completions : loop.mailbox.OnlyCompletions
  messages : ∀ event ∈ loop.mailbox.notifications, event.DistinctCalls
  distinct : loop.state.DistinctCalls
  balanced : Balanced (tracked pending loop.actionOutbox) loop.mailbox loop.state

namespace Accounts

variable {pending : List CompletionTarget} {loop : AgentCoreLoop}

section

variable (accounts : Accounts pending loop)
include accounts

theorem driveOnce : Accounts pending loop.driveOnce.1 := by
  rcases hNext : loop.nextEvent with ⟨_ | event, mailbox⟩
  · have takes := takes_of_nextEvent hNext
    rw [driveOnce_of_none hNext]
    exact
      { completions := accounts.completions.takes takes
        messages := fun event hEvent => accounts.messages event (takes.notifications_subset hEvent)
        distinct := accounts.distinct
        balanced := accounts.balanced.takes_none takes }
  · have takes := takes_of_nextEvent hNext
    rw [driveOnce_of_some hNext, AgentCoreLoop.apply]
    refine
      { completions := accounts.completions.takes takes
        messages := fun event hEvent => accounts.messages event (takes.notifications_subset hEvent)
        distinct := ?_
        balanced := ?_ }
    · rcases AgentState.step_cases loop.state event loop.nextActionId with ignored | fires
      · rw [ignored]
        exact accounts.distinct
      · apply fires.distinctCalls accounts.distinct
        cases hCompletion : event.isCompletion with
        | true => exact accounts.messages event (takes.completion_mem hCompletion)
        | false => cases event with
          | modelCompleted => cases hCompletion
          | _ => trivial
    · rw [tracked_append]
      exact accounts.balanced.takes accounts.completions accounts.distinct takes loop.nextActionId

theorem drive : Accounts pending loop.drive :=
  driveLoop.run_invariant (fun _ accounts => accounts.driveOnce) accounts

/-- After a drive the ledger has what the core waits for. -/
theorem drive_perm : (tracked pending loop.drive.actionOutbox).Perm loop.drive.state.waitsFor := by
  have quiet := loop.drive_quiet
  cases accounts.drive.balanced with
  | cleared empty ending =>
    rcases ending with requested | idle
    · rw [quiet] at requested
      cases requested
    · rw [empty, idle]
      exact List.Perm.refl _
  | live _ balance =>
    cases hReady : loop.drive.isReadyToContinue with
    | false =>
      obtain ⟨_, _, takes⟩ := loop.drive_exhausted hReady
      rw [notifiedTargets, takes.settled_of_none] at balance
      simpa using balance
    | true =>
      have rests : loop.drive.state.waitsFor = [] := by
        cases hState : loop.drive.state with
        | readyToContinue => rfl
        | _ => simp [isReadyToContinue, hState] at hReady
      rw [rests, accounts.drive.balanced.ledger_nil rests]

theorem enqueue_queued {input : AgentInput} (noCompletion : input.completion = none)
    (noInterrupt : input ≠ .interrupt) : Accounts pending (loop.enqueueInput input) := by
  have sameNotified : (loop.enqueueInput input).mailbox.notifications =
      loop.mailbox.notifications := by
    rw [enqueueInput, Mailbox.pushInput_notifications, noCompletion]
    simp
  have sameFlag : (loop.enqueueInput input).mailbox.interruptRequested =
      loop.mailbox.interruptRequested := by
    cases input with
    | interrupt => exact absurd rfl noInterrupt
    | _ => rfl
  exact
    { completions := accounts.completions.pushInput input
      messages := by
        rw [sameNotified]
        exact accounts.messages
      distinct := accounts.distinct
      balanced := by
        cases accounts.balanced with
        | live quiet balance =>
          apply Balanced.live (sameFlag.trans quiet)
          rw [notifiedTargets, sameNotified]
          exact balance
        | cleared empty ending =>
          apply Balanced.cleared empty
          rw [sameFlag]
          exact ending }

theorem enqueue_completion (drained : loop.actionOutbox = []) {input : AgentInput}
    {target : CompletionTarget} (hEvent : input.completion = some event)
    (hTarget : event.target = some target) (isPending : target ∈ pending)
    (message : event.DistinctCalls) :
    Accounts (pending.erase target) (loop.enqueueInput input) := by
  have hNotified : (loop.enqueueInput input).mailbox.notifications =
      loop.mailbox.notifications ++ [event] := by
    rw [enqueueInput, Mailbox.pushInput_notifications, hEvent]
    rfl
  have sameFlag : (loop.enqueueInput input).mailbox.interruptRequested =
      loop.mailbox.interruptRequested := by
    cases input with
    | interrupt => cases hEvent
    | _ => rfl
  refine
    { completions := accounts.completions.pushInput input
      messages := ?_
      distinct := accounts.distinct
      balanced := ?_ }
  · rw [hNotified]
    intro other hOther
    rcases Library.mem_concat.mp hOther with old | rfl
    · exact accounts.messages other old
    · exact message
  · have hOutbox : (loop.enqueueInput input).actionOutbox = [] := drained
    have balanced := accounts.balanced
    rw [drained] at balanced
    rw [hOutbox]
    cases balanced with
    | cleared empty =>
      have none : pending = [] := empty
      rw [none] at isPending
      cases isPending
    | live quiet balance =>
      apply Balanced.live (sameFlag.trans quiet)
      rw [notifiedTargets, hNotified, filterMap_append, filterMap_cons_some hTarget, filterMap_nil]
      have returned : (target :: (pending.erase target ++ notifiedTargets loop.mailbox)).Perm
          (pending ++ notifiedTargets loop.mailbox) :=
        (perm_cons_erase isPending).symm.append_right _
      have moved : (pending.erase target ++ (notifiedTargets loop.mailbox ++ [target])).Perm
          (pending ++ notifiedTargets loop.mailbox) := by
        rw [← append_assoc]
        exact (perm_append_singleton _ _).trans returned
      exact moved.trans balance

theorem cleared {drained : AgentCoreLoop} (hState : drained.state = loop.state)
    (hNotified : drained.mailbox.notifications = loop.mailbox.notifications)
    (hOutbox : drained.actionOutbox = [])
    (ending : drained.mailbox.interruptRequested ∨ drained.state = .idle) :
    Accounts [] drained where
  completions := by
    rw [Mailbox.OnlyCompletions, hNotified]
    exact accounts.completions
  messages := by
    rw [hNotified]
    exact accounts.messages
  distinct := by
    rw [hState]
    exact accounts.distinct
  balanced := by
    rw [hOutbox]
    exact .cleared rfl ending

end

theorem resumeRunningModel (turnId : TurnId) (actionId : ActionId) :
    Accounts [{ actionId, turnId, tool := none }] (.resumeRunningModel turnId actionId) where
  completions := by simp [AgentCoreLoop.resumeRunningModel, Mailbox.OnlyCompletions]
  messages := by simp [AgentCoreLoop.resumeRunningModel]
  distinct := trivial
  balanced := .live rfl (List.Perm.refl _)

end Accounts

variable {input : AgentInput}

theorem RecordedCompletion.event_of_fromInput {completion : RecordedCompletion}
    (reports : fromInput input = some completion) :
    ∃ event, input.completion = some event ∧ event.target = some completion.target := by
  cases input with
  | modelCompleted | modelFailed | toolCompleted =>
    cases reports
    exact ⟨_, rfl, rfl⟩
  | _ => cases reports

theorem RecordedCompletion.fromInput_of_event (hEvent : input.completion = some event) :
    ∃ completion, fromInput input = some completion ∧ event.target = some completion.target := by
  cases input with
  | modelCompleted | modelFailed | toolCompleted =>
    cases hEvent
    exact ⟨_, rfl, rfl⟩
  | _ => cases hEvent

theorem RecordedCompletion.completion_of_none (noReport : fromInput input = none) :
    input.completion = none := by
  cases input with
  | modelCompleted | modelFailed | toolCompleted => cases noReport
  | _ => rfl

/-- The input brings no model message with two equal calls. -/
def InputDistinct (input : AgentInput) : Prop :=
  ∀ event, input.completion = some event → event.DistinctCalls

theorem InputDistinct.of_plain
    (plain : ∀ actionId turnId assistant, input ≠ .modelCompleted actionId turnId assistant) :
    InputDistinct input := by
  intro event hEvent
  cases input with
  | modelCompleted actionId turnId assistant => exact absurd rfl (plain actionId turnId assistant)
  | modelFailed | toolCompleted =>
    cases hEvent
    trivial
  | _ => cases hEvent

namespace AgentSession

structure LedgerAgrees (session : AgentSession) : Prop where
  drained : session.core.actionOutbox = []
  accounts : Accounts session.outstandingActions.pending session.core

namespace LedgerAgrees

variable {session after : AgentSession}

section

variable (agrees : session.LedgerAgrees)
include agrees

theorem enqueueAccepted {input : AgentInput} (distinct : InputDistinct input) :
    (session.enqueueAccepted input).LedgerAgrees := by
  have enqueues := session.enqueueAccepted_enqueues input
  generalize session.enqueueAccepted input = enqueued at enqueues
  cases enqueues with
  | stale => exact agrees
  | queued noReport noInterrupt =>
    exact ⟨agrees.drained, agrees.accounts.enqueue_queued
      (RecordedCompletion.completion_of_none noReport) noInterrupt⟩
  | interrupt =>
    refine ⟨agrees.drained, ?_⟩
    rw [session.invalidateSessionWork_pending]
    exact agrees.accounts.cleared rfl rfl agrees.drained (.inl rfl)
  | completion reports pending =>
    obtain ⟨event, hEvent, hTarget⟩ := RecordedCompletion.event_of_fromInput reports
    exact ⟨agrees.drained, agrees.accounts.enqueue_completion agrees.drained hEvent hTarget pending
      (distinct event hEvent)⟩

theorem drive (stamps : Nat → EntryStamp) : (session.drive stamps).LedgerAgrees := by
  refine ⟨by rw [drive_core], ?_⟩
  have driven := agrees.accounts.drive
  rw [drive_pending, drive_core]
  exact
    { completions := driven.completions
      messages := driven.messages
      distinct := driven.distinct
      balanced := driven.balanced }

theorem drainPendingInputs :
    session.drainPendingInputs.2.LedgerAgrees where
  drained := agrees.drained
  accounts :=
    { completions := agrees.accounts.completions
      messages := agrees.accounts.messages
      distinct := agrees.accounts.distinct
      balanced := by
        cases agrees.accounts.balanced with
        | live quiet balance => exact .live quiet balance
        | cleared empty ending => exact .cleared empty ending }

theorem prepares (step : session.Prepares after) : after.LedgerAgrees := by
  cases step with
  | drained => exact agrees.drainPendingInputs
  | idle idle =>
    refine ⟨by rw [invalidateSessionWork_core]; exact agrees.drained, ?_⟩
    rw [invalidateSessionWork_pending, invalidateSessionWork_core]
    exact agrees.accounts.cleared rfl rfl agrees.drained (.inr idle)
  | enqueued noReport =>
    apply agrees.enqueueAccepted
    intro event hEvent
    rw [RecordedCompletion.completion_of_none noReport] at hEvent
    cases hEvent
  | driven stamps => exact agrees.drive stamps

end

theorem replaced {turnId : TurnId} {actionId : ActionId}
    (replaced : session.Replaced turnId actionId after) : after.LedgerAgrees := by
  refine ⟨by rw [replaced.core]; rfl, ?_⟩
  rw [replaced.core, replaced.pending]
  exact .resumeRunningModel turnId actionId

end LedgerAgrees

end AgentSession

def SessionCall.Whole : SessionCall → Prop
  | .enqueueSessionInput (.modelCompleted _ _ assistant) _ =>
    (assistant.toolCalls.map ToolCall.key).Nodup
  | .enqueueSessionInput (.modelMaxOutputTokens _ _ _ _ _) _ => False
  | _ => True

namespace AgentSession

variable {session : AgentSession}

theorem LedgerAgrees.call (agrees : session.LedgerAgrees) {call : SessionCall} (whole : call.Whole) :
    (session.call call).LedgerAgrees := by
  cases call with
  | enqueueInput input =>
    rcases session.call_enqueueInput input with refused | ⟨enqueued, plain⟩
    · rw [refused]
      exact agrees
    · rw [enqueued]
      exact agrees.enqueueAccepted (.of_plain plain)
  | enqueueSessionInput input =>
    cases input with
    | modelCompleted =>
      apply agrees.enqueueAccepted
      intro event hEvent
      cases hEvent
      exact whole
    | modelMaxOutputTokens => cases whole
  | drive stamps => exact agrees.drive stamps
  | drainPendingInputs => exact agrees.drainPendingInputs
  | drainActions | drainEvents => exact ⟨agrees.drained, agrees.accounts⟩
  | resumeModelTurn | restoreCompactedRuntime =>
    exact call_of_replaces prepares (fun _ => replaced) rfl agrees

theorem LedgerAgrees.of_settled (hMailbox : session.core.mailbox = {})
    (hOutbox : session.core.actionOutbox = []) (hPending : session.outstandingActions.pending = [])
    (hState : session.core.state = .idle ∨ ∃ turnId, session.core.state = .readyToContinue turnId) :
    session.LedgerAgrees := by
  have rests : session.core.state.waitsFor = [] ∧ session.core.state.DistinctCalls := by
    rcases hState with hIdle | ⟨turnId, hReady⟩
    · rw [hIdle]
      exact ⟨rfl, trivial⟩
    · rw [hReady]
      exact ⟨rfl, trivial⟩
  refine ⟨hOutbox, ?_, ?_, rests.2, .live ?_ ?_⟩
  · rw [hMailbox]
    exact nofun
  · rw [hMailbox]
    exact nofun
  · rw [hMailbox]
  · rw [hMailbox, hOutbox, hPending, rests.1]
    exact List.Perm.refl _

theorem Constructed.ledgerAgrees (constructed : session.Constructed) : session.LedgerAgrees := by
  obtain ⟨hCore, hLedger, _⟩ := constructed.core_cases
  have hPending : session.outstandingActions.pending = [] := by rw [hLedger]
  rcases hCore with ⟨lastTurnId, next, hCore⟩ | ⟨turnId, next, hCore⟩
  · exact .of_settled (by rw [hCore]; rfl) (by rw [hCore]; rfl) hPending (.inl (by rw [hCore]; rfl))
  · exact .of_settled (by rw [hCore]; rfl) (by rw [hCore]; rfl) hPending
      (.inr ⟨turnId, by rw [hCore]; rfl⟩)

def wholeRuns : Machine AgentSession SessionCall :=
  (machine Constructed).guarded fun _ call => call.Whole

/-- Right after a drive the ledger holds exactly the requests the core waits for,
and the session accepts a completion exactly when the core acts on it. -/
theorem ledger_agrees_after_drive {session : AgentSession} (reaches : wholeRuns.Reaches session)
    (stamps : Nat → EntryStamp) :
    (session.drive stamps).outstandingActions.pending.Perm
        (session.drive stamps).core.state.waitsFor ∧
      ∀ input event, input.completion = some event →
        (((session.drive stamps).outstandingActions.acceptCompletion input).isSome = true ↔
          (session.drive stamps).core.state.step event (session.drive stamps).core.nextActionId ≠
            emptyTransition (session.drive stamps).core.state
              (session.drive stamps).core.nextActionId) := by
  have agrees : session.LedgerAgrees := by
    apply reaches.invariant
    · exact fun session constructed => constructed.ledgerAgrees
    · rintro session call after _ agrees ⟨whole, rfl⟩
      exact agrees.call whole
  have balance : (session.drive stamps).outstandingActions.pending.Perm
      (session.drive stamps).core.state.waitsFor := by
    rw [drive_pending, drive_core]
    exact agrees.accounts.drive_perm
  refine ⟨balance, ?_⟩
  intro input event hEvent
  obtain ⟨_, reports, hTarget⟩ := RecordedCompletion.fromInput_of_event hEvent
  rw [AgentState.step_ne_empty_iff _ hTarget,
    AgentState.actsOn_iff_mem_waitsFor (agrees.drive stamps).accounts.distinct, ← balance.mem_iff]
  simp [OutstandingActions.acceptCompletion, reports]

/-- A batch of two tools: the drive after the model's message leaves two requests
in the ledger, and they are the two the core waits for. -/
theorem ledger_agrees_after_drive_batch :
    let calls : List ToolCall := [⟨"a", "bash", "\x7b\x7d"⟩, ⟨"b", "bash", "\x7b\x7d"⟩]
    let stamps : Nat → Nat → EntryStamp :=
      fun used draw => { id := toString (used + draw), timestampMs := 0 }
    let session := new.calls [.enqueueInput (.followUp { message := .text "go" }),
        .drive (stamps 0),
        .enqueueSessionInput (.modelCompleted 1 1 { items := calls.map .toolCall }) (stamps 10)]
    (session.drive (stamps 20)).outstandingActions.pending.length = 2 ∧
      (session.drive (stamps 20)).outstandingActions.pending.Perm
        (session.drive (stamps 20)).core.state.waitsFor := by
  intro calls stamps session
  refine ⟨by decide, ?_⟩
  have started : wholeRuns.Reaches new := .start .new
  have enqueued := started.call (.enqueueInput (.followUp { message := .text "go" })) trivial
  have driven := enqueued.call (.drive (stamps 0)) trivial
  have distinct : (SessionCall.enqueueSessionInput
      (.modelCompleted 1 1 { items := calls.map .toolCall }) (stamps 10)).Whole := by
    simp [SessionCall.Whole, AssistantMessage.toolCalls, calls, ToolCall.key]
  exact (ledger_agrees_after_drive (driven.call _ distinct) (stamps 20)).1

end AgentSession

end PiRelay.Session
