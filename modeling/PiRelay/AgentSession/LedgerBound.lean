import Mathlib.Data.List.Nodup
import Mathlib.Data.List.Perm.Subperm
import PiRelay.AgentCore.ActionIds
import PiRelay.AgentSession.LedgerAgreement

/-! What the ledger promises in every run. A completion of a repeated call is
accepted by the session and ignored by the core, and an output cut off at its token
limit is accepted without the core, so ledger and core need not agree. But the
ledger and the mailbox together never hold more than the core waits for, and no
two requests of the ledger share an id. -/
namespace PiRelay.Session

open AgentVocab AgentCore List Option

/-- Either ledger and mailbox hold nothing the core does not wait for, or the
ledger is empty and the turn is over or about to be interrupted. -/
inductive Backed (ledger : List CompletionTarget) (mailbox : Mailbox) (state : AgentState) :
    Prop where
  | live (quiet : mailbox.interruptRequested = false)
      (bounded : (ledger ++ notifiedTargets mailbox).Subperm state.waitsFor)
  | cleared (empty : ledger = []) (ending : mailbox.interruptRequested = true ∨ state = .idle)

namespace Backed

variable {ledger : List CompletionTarget} {mailbox after : Mailbox} {state : AgentState}
  {turnId nextTurnId : TurnId}

theorem ledger_nil (backed : Backed ledger mailbox state) (rests : state.waitsFor = []) :
    ledger = [] := by
  cases backed with
  | live _ bounded =>
    rw [rests, subperm_nil] at bounded
    exact (append_eq_nil_iff.mp bounded).1
  | cleared empty => exact empty

theorem of_pending (backed : Backed ledger mailbox state) {target : CompletionTarget}
    (pending : target ∈ ledger) :
    mailbox.interruptRequested = false ∧
      (ledger ++ notifiedTargets mailbox).Subperm state.waitsFor ∧ target ∈ state.waitsFor := by
  cases backed with
  | live quiet bounded => exact ⟨quiet, bounded, bounded.subset (mem_append_left _ pending)⟩
  | cleared empty => rw [empty] at pending; cases pending

theorem requestModel (items : List TranscriptItem) (next : ActionId) (hLedger : ledger = [])
    (quiet : after.interruptRequested = false) (settled : after.notifications = []) :
    Backed (tracked ledger (AgentCore.requestModel turnId items next).actions) after
      (AgentCore.requestModel turnId items next).state := by
  subst hLedger
  apply live quiet
  rw [notifiedTargets, settled]
  exact List.Subperm.refl _

theorem interrupt (backed : Backed ledger mailbox state)
    (requested : mailbox.interruptRequested) (next : ActionId) :
    Backed (tracked ledger (state.step .interrupt next).actions) after
      (state.step .interrupt next).state := by
  cases backed with
  | live quiet => rw [quiet] at requested; cases requested
  | cleared empty =>
    subst empty
    cases state <;> exact cleared rfl (.inr rfl)

variable {event : AgentEvent}

section

variable (backed : Backed ledger mailbox state)
include backed

theorem completion {rest : List AgentEvent}
    (quiet : (mailbox.interruptRequested && state.isActive) = false)
    (hFirst : mailbox.notifications = event :: rest) (hCompletion : event.isCompletion)
    (next : ActionId) :
    Backed (tracked ledger (state.step event next).actions)
      { mailbox with notifications := rest, interruptRequested := false }
      (state.step event next).state := by
  obtain ⟨target, hTarget⟩ :=
    isSome_iff_exists.mp (AgentEvent.isCompletion_iff_target.mp hCompletion)
  cases backed with
  | cleared empty ending =>
    obtain ⟨idle, ignored⟩ := ignored_of_ending ending quiet hTarget next
    rw [ignored]
    exact cleared empty (.inr idle)
  | live _ bounded =>
    rw [notifiedTargets, hFirst, filterMap_cons_some hTarget] at bounded
    have taken := perm_middle.symm.subperm.trans bounded
    apply live rfl
    rcases state.step_completion hTarget next with ⟨_, ignored⟩ | ⟨_, fires⟩
    · rw [ignored]
      exact (sublist_cons_self _ _).subperm.trans taken
    · obtain ⟨front, answered, back, hAnswered, before, hAfter⟩ :=
        fires.waitsFor_completion hCompletion
      cases hTarget.symm.trans hAnswered
      rw [Balanced.actions_of_completion fires hCompletion, hAfter]
      rw [before] at taken
      have others : (ledger ++ rest.filterMap AgentEvent.target).Subperm (front ++ back) :=
        (subperm_cons target).mp (taken.trans perm_middle.subperm)
      exact (sent_notified_swap ledger _ _).subperm.trans ((subperm_append_right _).mpr others)

theorem takes (only : mailbox.OnlyCompletions)
    (hTakes : mailbox.Takes nextTurnId state (some event) after) (next : ActionId) :
    Backed (tracked ledger (state.step event next).actions) after
      (state.step event next).state := by
  cases hTakes with
  | interrupt _ requested => exact backed.interrupt requested next
  | notification quiet hFirst =>
    exact backed.completion quiet hFirst (only _ (hFirst ▸ mem_cons_self)) next
  | steer quiet settled | daemonObservation quiet settled | continueModel quiet settled
  | startSteer settled | startFollowUp settled | startObservation settled =>
    exact requestModel _ next (backed.ledger_nil rfl) rfl settled

theorem takes_none (hTakes : mailbox.Takes nextTurnId state none after) :
    Backed ledger after state := by
  cases hTakes with
  | emptyIdle => exact cleared (backed.ledger_nil rfl) (.inr rfl)
  | waiting active _ quiet =>
    cases backed with
    | live _ bounded => exact live rfl bounded
    | cleared _ ending =>
      exfalso
      rcases ending with requested | idle
      · rw [quiet] at requested
        cases requested
      · rw [idle] at active
        cases active

theorem of_same (sameNotified : after.notifications = mailbox.notifications)
    (sameFlag : after.interruptRequested = mailbox.interruptRequested) :
    Backed ledger after state := by
  cases backed with
  | live quiet bounded =>
    apply live (sameFlag.trans quiet)
    rw [notifiedTargets, sameNotified]
    exact bounded
  | cleared empty ending =>
    apply cleared empty
    rw [sameFlag]
    exact ending

theorem accept {target : CompletionTarget} (hTarget : event.target = some target)
    (pending : target ∈ ledger) (hNotified : after.notifications = mailbox.notifications ++ [event])
    (sameFlag : after.interruptRequested = mailbox.interruptRequested) :
    Backed (ledger.erase target) after state := by
  obtain ⟨quiet, bounded, _⟩ := backed.of_pending pending
  apply live (sameFlag.trans quiet)
  rw [notifiedTargets, hNotified, filterMap_append, filterMap_cons_some hTarget,
    filterMap_nil, ← notifiedTargets, ← append_assoc]
  have returned : (target :: (ledger.erase target ++ notifiedTargets mailbox)).Perm
      (ledger ++ notifiedTargets mailbox) := (perm_cons_erase pending).symm.append_right _
  exact ((perm_append_singleton _ _).trans returned).subperm.trans bounded

theorem forget (target : CompletionTarget) : Backed (ledger.erase target) mailbox state := by
  cases backed with
  | live quiet bounded =>
    have fewer : (ledger.erase target ++ notifiedTargets mailbox).Sublist
        (ledger ++ notifiedTargets mailbox) := erase_sublist.append_right _
    exact live quiet (fewer.subperm.trans bounded)
  | cleared empty ending =>
    subst empty
    exact cleared rfl ending

end

end Backed

theorem tracked_sublist (pending : List CompletionTarget) (actions : List AgentAction) :
    (tracked pending actions).Sublist
      (pending ++ actions.filterMap CompletionTarget.fromCoreAction) := by
  induction actions generalizing pending with
  | nil => simp [tracked]
  | cons action _ ih =>
    have later := ih (trackAction pending action)
    refine later.trans ?_
    cases action with
    | cancelTurn => exact (nil_sublist _).append_right _
    | requestModel | requestTool =>
      simp [trackAction, CompletionTarget.fromCoreAction, append_assoc]

theorem filterMap_fromCoreAction_actionId (actions : List AgentAction) :
    (actions.filterMap CompletionTarget.fromCoreAction).map (·.actionId) =
      actions.filterMap AgentAction.actionId := by
  induction actions with
  | nil => rfl
  | cons action _ ih =>
    cases action with
    | cancelTurn => exact ih
    | requestModel | requestTool => exact congrArg (List.cons _) ih

/-- Distinct ids, all handed out before. -/
structure Numbered (targets : List CompletionTarget) (next : ActionId) : Prop where
  distinct : (targets.map (·.actionId)).Nodup
  used : ∀ target ∈ targets, target.actionId < next

namespace Numbered

variable {targets : List CompletionTarget} {next : ActionId}

theorem sublist (numbered : Numbered targets next) {fewer : List CompletionTarget}
    (sub : fewer.Sublist targets) : Numbered fewer next where
  distinct := numbered.distinct.sublist (sub.map _)
  used := fun target mem => numbered.used target (sub.subset mem)

theorem step (numbered : Numbered targets next) (state : AgentState) (event : AgentEvent) :
    Numbered (tracked targets (state.step event next).actions)
      (state.step event next).nextActionId := by
  obtain ⟨_, hIds, hNext⟩ := state.step_actionIds event next
  have all : Numbered (targets ++
      (state.step event next).actions.filterMap CompletionTarget.fromCoreAction)
      (state.step event next).nextActionId := by
    constructor
    · rw [map_append, filterMap_fromCoreAction_actionId, hIds, nodup_append']
      refine ⟨numbered.distinct, nodup_range', ?_⟩
      intro id old new
      obtain ⟨target, mem, rfl⟩ := mem_map.mp old
      exact absurd (mem_range'_1.mp new).1 (Nat.not_le.mpr (numbered.used target mem))
    · intro target mem
      rcases mem_append.mp mem with old | new
      · rw [hNext]
        exact Nat.lt_of_lt_of_le (numbered.used target old) (Nat.le_add_right _ _)
      · exact (actionId_of_sent new).2
  exact all.sublist (tracked_sublist _ _)

end Numbered

/-- The loop within a drive that began with these pending requests. -/
structure Bounded (pending : List CompletionTarget) (loop : AgentCoreLoop) : Prop where
  completions : loop.mailbox.OnlyCompletions
  backed : Backed (tracked pending loop.actionOutbox) loop.mailbox loop.state
  numbered : Numbered (tracked pending loop.actionOutbox) loop.nextActionId

namespace Bounded

variable {pending : List CompletionTarget} {loop : AgentCoreLoop}

theorem driveOnce (bounded : Bounded pending loop) : Bounded pending loop.driveOnce.1 := by
  rcases hNext : loop.nextEvent with ⟨_ | event, mailbox⟩
  · have takes := AgentCoreLoop.takes_of_nextEvent hNext
    rw [AgentCoreLoop.driveOnce_of_none hNext]
    exact
      { completions := bounded.completions.takes takes
        backed := bounded.backed.takes_none takes
        numbered := bounded.numbered }
  · have takes := AgentCoreLoop.takes_of_nextEvent hNext
    rw [AgentCoreLoop.driveOnce_of_some hNext, AgentCoreLoop.apply]
    refine
      { completions := bounded.completions.takes takes
        backed := ?_
        numbered := ?_ }
    · rw [tracked_append]
      exact bounded.backed.takes bounded.completions takes loop.nextActionId
    · rw [tracked_append]
      exact bounded.numbered.step loop.state event

theorem drive (bounded : Bounded pending loop) : Bounded pending loop.drive :=
  AgentCoreLoop.driveLoop.run_invariant (fun _ bounded => bounded.driveOnce) bounded

end Bounded

theorem AgentInput.flag_of_ne_interrupt {input : AgentInput} (noInterrupt : input ≠ .interrupt)
    (mailbox : Mailbox) :
    (mailbox.pushInput input).interruptRequested = mailbox.interruptRequested := by
  cases input with
  | interrupt => exact absurd rfl noInterrupt
  | _ => rfl

namespace AgentSession

structure LedgerBounded (session : AgentSession) : Prop where
  noActions : session.core.actionOutbox = []
  noItems : session.core.transcriptItemOutbox = []
  bounded : Bounded session.outstandingActions.pending session.core

namespace LedgerBounded

variable {session after : AgentSession}

theorem backed (holds : session.LedgerBounded) :
    Backed session.outstandingActions.pending session.core.mailbox session.core.state := by
  have backed := holds.bounded.backed
  rw [holds.noActions] at backed
  exact backed

theorem numbered (holds : session.LedgerBounded) :
    Numbered session.outstandingActions.pending session.core.nextActionId := by
  have numbered := holds.bounded.numbered
  rw [holds.noActions] at numbered
  exact numbered

theorem of_parts (noActions : session.core.actionOutbox = [])
    (noItems : session.core.transcriptItemOutbox = [])
    (completions : session.core.mailbox.OnlyCompletions)
    (backed : Backed session.outstandingActions.pending session.core.mailbox session.core.state)
    (numbered : Numbered session.outstandingActions.pending session.core.nextActionId) :
    session.LedgerBounded := by
  refine ⟨noActions, noItems, completions, ?_, ?_⟩
  · rw [noActions]
    exact backed
  · rw [noActions]
    exact numbered

theorem cleared (holds : session.LedgerBounded) (hPending : after.outstandingActions.pending = [])
    (noActions : after.core.actionOutbox = []) (noItems : after.core.transcriptItemOutbox = [])
    (hNotified : after.core.mailbox.notifications = session.core.mailbox.notifications)
    (ending : after.core.mailbox.interruptRequested ∨ after.core.state = .idle) :
    after.LedgerBounded := by
  apply of_parts noActions noItems
  · rw [Mailbox.OnlyCompletions, hNotified]
    exact holds.bounded.completions
  · exact .cleared hPending ending
  · rw [hPending]
    exact ⟨nodup_nil, by simp⟩

variable {turnId : TurnId} {actionId : ActionId}

section

variable (holds : session.LedgerBounded)
include holds

theorem settled_of_runningModel (running : session.core.state = .runningModel turnId actionId)
    {target : CompletionTarget} (isPending : target ∈ session.outstandingActions.pending) :
    session.core.mailbox.notifications = [] ∧
      session.outstandingActions.pending = [{ actionId, turnId, tool := none }] ∧
      session.core.mailbox.interruptRequested = false := by
  obtain ⟨quiet, bounded, _⟩ := holds.backed.of_pending isPending
  rw [running, AgentState.waitsFor] at bounded
  have short := bounded.length_le
  have some := length_pos_of_mem isPending
  rw [length_append, length_singleton] at short
  have noTargets : notifiedTargets session.core.mailbox = [] := length_eq_zero_iff.mp (by omega)
  refine ⟨?_, ?_, quiet⟩
  · rw [eq_nil_iff_forall_not_mem]
    intro event mem
    obtain ⟨found, hFound⟩ := isSome_iff_exists.mp
      (AgentEvent.isCompletion_iff_target.mp (holds.bounded.completions event mem))
    have listed : found ∈ notifiedTargets session.core.mailbox :=
      mem_filterMap.mpr ⟨event, mem, hFound⟩
    rw [noTargets] at listed
    cases listed
  · rw [noTargets, append_nil] at bounded
    exact perm_singleton.mp (bounded.perm_of_length_le some)

/-- A pending model request is pending alone. -/
theorem lone_model
    (isPending : { actionId, turnId, tool := none } ∈ session.outstandingActions.pending) :
    session.core.state = .runningModel turnId actionId ∧
      session.core.mailbox.notifications = [] ∧
      session.outstandingActions.pending = [{ actionId, turnId, tool := none }] ∧
      session.core.mailbox.interruptRequested = false := by
  obtain ⟨_, _, waited⟩ := holds.backed.of_pending isPending
  have running : session.core.state = .runningModel turnId actionId := by
    cases hState : session.core.state with
    | idle | readyToContinue => rw [hState] at waited; cases waited
    | runningModel =>
      rw [hState] at waited
      injection mem_singleton.mp waited with hAction hTurn
      rw [hAction, hTurn]
    | runningTools =>
      rw [hState] at waited
      obtain ⟨tool, _, same⟩ := mem_map.mp waited
      injection same with _ _ hTool
      cases hTool
  obtain ⟨settled, alone, quiet⟩ := holds.settled_of_runningModel running isPending
  exact ⟨running, settled, alone, quiet⟩

theorem enqueueAccepted (input : AgentInput) : (session.enqueueAccepted input).LedgerBounded := by
  have enqueues := session.enqueueAccepted_enqueues input
  generalize session.enqueueAccepted input = enqueued at enqueues
  cases enqueues with
  | stale => exact holds
  | queued noReport noInterrupt =>
    refine of_parts holds.noActions holds.noItems (holds.bounded.completions.pushInput input) ?_ ?_
    · apply holds.backed.of_same
      · show (session.core.mailbox.pushInput input).notifications = _
        rw [Mailbox.pushInput_notifications, RecordedCompletion.completion_of_none noReport]
        simp
      · exact AgentInput.flag_of_ne_interrupt noInterrupt _
    · exact holds.numbered
  | interrupt =>
    exact holds.cleared (session.invalidateSessionWork_pending) holds.noActions holds.noItems rfl
      (.inl rfl)
  | completion reports pending =>
    obtain ⟨_, hEvent, hTarget⟩ := RecordedCompletion.event_of_fromInput reports
    refine of_parts holds.noActions holds.noItems (holds.bounded.completions.pushInput input) ?_ ?_
    · apply holds.backed.accept hTarget pending
      · show (session.core.mailbox.pushInput input).notifications = _
        rw [Mailbox.pushInput_notifications, hEvent]
        rfl
      · apply AgentInput.flag_of_ne_interrupt
        rintro rfl
        cases hEvent
    · exact holds.numbered.sublist erase_sublist

theorem acceptModelMaxOutputTokens (actionId : ActionId) (turnId : TurnId)
    (assistant : AssistantMessage) (providerReplay : List ProviderReplayItem) (error : String)
    (stamps : Nat → EntryStamp) :
    (session.acceptModelMaxOutputTokens actionId turnId assistant providerReplay error
      stamps).LedgerBounded := by
  rcases session.acceptModelMaxOutputTokens_cases actionId turnId assistant providerReplay error
    stamps with ⟨_, stale⟩ | ⟨_, accepted⟩
  · rw [stale]
    exact holds
  · rw [accepted]
    exact of_parts holds.noActions holds.noItems holds.bounded.completions (holds.backed.forget _)
      (holds.numbered.sublist erase_sublist)

theorem drive (stamps : Nat → EntryStamp) : (session.drive stamps).LedgerBounded := by
  have driven := holds.bounded.drive
  apply of_parts
  · rw [drive_core]
  · rw [drive_core]
  · rw [drive_core]
    exact driven.completions
  · rw [drive_pending, drive_core]
    exact driven.backed
  · rw [drive_pending, drive_core]
    exact driven.numbered

theorem drainPendingInputs : session.drainPendingInputs.2.LedgerBounded :=
  of_parts holds.noActions holds.noItems holds.bounded.completions (holds.backed.of_same rfl rfl)
    holds.numbered

theorem prepares (step : session.Prepares after) : after.LedgerBounded := by
  cases step with
  | drained => exact holds.drainPendingInputs
  | idle idle =>
    apply holds.cleared session.invalidateSessionWork_pending
    · rw [invalidateSessionWork_core]
      exact holds.noActions
    · rw [invalidateSessionWork_core]
      exact holds.noItems
    · rw [invalidateSessionWork_core]
    · rw [invalidateSessionWork_core]
      exact .inr idle
  | enqueued => exact holds.enqueueAccepted _
  | driven stamps => exact holds.drive stamps

end

theorem replaced (replaced : session.Replaced turnId actionId after) : after.LedgerBounded := by
  apply of_parts
  · rw [replaced.core]
    rfl
  · rw [replaced.core]
    rfl
  · rw [replaced.core]
    simp [AgentCoreLoop.resumeRunningModel, Mailbox.OnlyCompletions]
  · rw [replaced.core, replaced.pending]
    exact .live rfl (List.Subperm.refl _)
  · rw [replaced.core, replaced.pending]
    refine ⟨nodup_singleton _, ?_⟩
    intro target mem
    rw [mem_singleton.mp mem]
    exact Nat.lt_succ_self actionId

theorem call (holds : session.LedgerBounded) (call : SessionCall) :
    (session.call call).LedgerBounded := by
  cases call with
  | enqueueInput => exact call_enqueueInput_of holds (holds.enqueueAccepted _)
  | enqueueSessionInput input stamps =>
    cases input with
    | modelCompleted => exact holds.enqueueAccepted _
    | modelMaxOutputTokens actionId turnId assistant providerReplay error =>
      exact holds.acceptModelMaxOutputTokens actionId turnId assistant providerReplay error stamps
  | drive stamps => exact holds.drive stamps
  | drainPendingInputs => exact holds.drainPendingInputs
  | drainActions | drainEvents => exact ⟨holds.noActions, holds.noItems, holds.bounded⟩
  | resumeModelTurn | restoreCompactedRuntime =>
    exact call_of_replaces prepares (fun _ => replaced) rfl holds

end LedgerBounded

theorem Constructed.ledgerBounded {session : AgentSession} (constructed : session.Constructed) :
    session.LedgerBounded := by
  obtain ⟨hCore, hLedger, _⟩ := constructed.core_cases
  have hPending : session.outstandingActions.pending = [] := by rw [hLedger]
  have settled : session.core.actionOutbox = [] ∧ session.core.transcriptItemOutbox = [] ∧
      session.core.mailbox = {} ∧ session.core.state.waitsFor = [] := by
    rcases hCore with ⟨lastTurnId, next, hCore⟩ | ⟨turnId, next, hCore⟩
    all_goals
      rw [hCore]
      exact ⟨rfl, rfl, rfl, rfl⟩
  obtain ⟨noActions, noItems, hMailbox, rests⟩ := settled
  apply LedgerBounded.of_parts noActions noItems
  · rw [hMailbox]
    exact nofun
  · rw [hPending, hMailbox]
    exact .live rfl (by rw [rests]; exact List.Subperm.refl _)
  · rw [hPending]
    exact ⟨nodup_nil, by simp⟩

end AgentSession

end PiRelay.Session
