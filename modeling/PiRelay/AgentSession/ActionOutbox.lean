import Mathlib.Data.List.Perm.Subperm
import PiRelay.AgentSession.Runs

/-! The action outbox of a session between two drains. Interrupts, canceled turns,
history operations and early completions all edit it, and each leaves it in order:
one cancellation at most, before every request, and only requests that the ledger
still waits for. A caller that performs the outbox in order then starts only
pending work, and cancels only what it had started before. -/
namespace PiRelay.Session

open AgentVocab AgentCore SessionAction List

def requestTargets (actions : List SessionAction) : List CompletionTarget :=
  actions.filterMap completionTargetFromSessionAction

/-- The work that runs once a caller has performed the action: a cancellation ends
all of it, a request starts one more. -/
def perform (running : List CompletionTarget) (action : SessionAction) : List CompletionTarget :=
  match completionTargetFromSessionAction action with
  | none => []
  | some target => running ++ [target]

variable {action : SessionAction}

theorem SessionAction.isStart_iff_target :
    action.isStart ↔ (completionTargetFromSessionAction action).isSome := by
  cases action <;> simp [isStart, completionTargetFromSessionAction]

/-- A list of requests, or one cancellation and requests after it. -/
inductive CancelsFirst : List SessionAction → Prop where
  | requests {actions : List SessionAction}
      (starts : ∀ action ∈ actions, action.isStart = true) : CancelsFirst actions
  | cancel {actions : List SessionAction}
      (starts : ∀ action ∈ actions, action.isStart = true) :
      CancelsFirst (.cancelSessionWork :: actions)

namespace CancelsFirst

variable {outbox : List SessionAction}

theorem append_request (ordered : CancelsFirst outbox)
    (start : action.isStart) : CancelsFirst (outbox ++ [action]) := by
  cases ordered with
  | requests starts =>
    apply requests
    intro other hOther
    rcases Library.mem_concat.mp hOther with old | rfl
    · exact starts other old
    · exact start
  | cancel starts =>
    apply cancel
    intro other hOther
    rcases Library.mem_concat.mp hOther with old | rfl
    · exact starts other old
    · exact start

theorem eraseP_request (ordered : CancelsFirst outbox) {removed : SessionAction → Bool}
    (keepsCancel : removed .cancelSessionWork = false) : CancelsFirst (outbox.eraseP removed) := by
  cases ordered with
  | requests starts =>
    exact requests fun action hAction => starts action (mem_of_mem_eraseP hAction)
  | cancel starts =>
    rw [eraseP_cons_of_neg (by simp [keepsCancel])]
    exact cancel fun action hAction => starts action (mem_of_mem_eraseP hAction)

variable {actions : List SessionAction}

theorem filter_isCancel_of_starts (starts : ∀ action ∈ actions, action.isStart) :
    actions.filter SessionAction.isCancelSessionWork = [] := by
  apply filter_eq_nil_iff.mpr
  intro action hAction
  have start := starts action hAction
  cases action with
  | cancelSessionWork => cases start
  | requestModel | requestTool => simp [isCancelSessionWork]

theorem filter_isCancel (ordered : CancelsFirst outbox) :
    outbox.filter SessionAction.isCancelSessionWork =
      if outbox.any SessionAction.isCancelSessionWork then [.cancelSessionWork] else [] := by
  cases ordered with
  | requests starts =>
    have none := filter_isCancel_of_starts starts
    have noCancel : outbox.any isCancelSessionWork = false := by
      rw [any_eq_false]
      exact filter_eq_nil_iff.mp none
    rw [none, noCancel]
    rfl
  | cancel starts =>
    rw [filter_cons_of_pos rfl, filter_isCancel_of_starts starts]
    rfl

theorem of_cancels {cancels : Bool}
    (hActions : actions = if cancels then [.cancelSessionWork] else []) :
    CancelsFirst actions ∧ requestTargets actions = [] := by
  subst hActions
  cases cancels with
  | true => exact ⟨cancel (by simp), rfl⟩
  | false => exact ⟨requests (by simp), rfl⟩

theorem count_le_one (ordered : CancelsFirst outbox) :
    outbox.countP SessionAction.isCancelSessionWork ≤ 1 := by
  rw [countP_eq_length_filter, ordered.filter_isCancel]
  split
  · exact Nat.le_refl 1
  · exact Nat.zero_le 1

theorem nothing_before (ordered : CancelsFirst outbox) {done rest : List SessionAction}
    (split : outbox = done ++ .cancelSessionWork :: rest) : done = [] := by
  cases ordered with
  | requests starts =>
    have start := starts .cancelSessionWork (by simp [split])
    cases start
  | cancel starts =>
    cases done with
    | nil => rfl
    | cons =>
      injection split with _ hRest
      have start := starts .cancelSessionWork (by simp [hRest])
      cases start

theorem foldl_perform_of_starts (starts : ∀ action ∈ actions, action.isStart)
    (running : List CompletionTarget) :
    actions.foldl perform running = running ++ requestTargets actions := by
  induction actions generalizing running with
  | nil => simp [requestTargets]
  | cons action _ ih =>
    obtain ⟨_, hTarget⟩ := Option.isSome_iff_exists.mp
      (isStart_iff_target.mp (starts action (.head _)))
    rw [foldl_cons, ih (forall_mem_cons.mp starts).2]
    simp [perform, requestTargets, hTarget]

theorem foldl_perform (ordered : CancelsFirst outbox) (running : List CompletionTarget) :
    outbox.foldl perform running =
      (if outbox.any SessionAction.isCancelSessionWork then [] else running)
        ++ requestTargets outbox := by
  cases ordered with
  | requests starts =>
    have noCancel : outbox.any isCancelSessionWork = false := by
      rw [any_eq_false]
      exact filter_eq_nil_iff.mp (filter_isCancel_of_starts starts)
    rw [foldl_perform_of_starts starts, noCancel]
    rfl
  | cancel starts =>
    rw [foldl_cons, foldl_perform_of_starts starts]
    rfl

end CancelsFirst

namespace AgentSession

/-- The outbox is in order, and each of its requests has its own place in the
ledger. -/
structure OutboxTracked (session : AgentSession) : Prop where
  ordered : CancelsFirst session.actionOutbox
  tracked : (requestTargets session.actionOutbox).Subperm session.outstandingActions.pending

namespace OutboxTracked

variable {session after : AgentSession}

theorem of_same (holds : session.OutboxTracked) (hOutbox : after.actionOutbox = session.actionOutbox)
    (hPending : after.outstandingActions.pending = session.outstandingActions.pending) :
    after.OutboxTracked :=
  ⟨hOutbox ▸ holds.ordered, by rw [hOutbox, hPending]; exact holds.tracked⟩

theorem of_cancels {cancels : Bool}
    (hOutbox : after.actionOutbox = if cancels then [.cancelSessionWork] else []) :
    after.OutboxTracked := by
  obtain ⟨ordered, noRequests⟩ := CancelsFirst.of_cancels hOutbox
  refine ⟨ordered, ?_⟩
  rw [noRequests]
  exact nil_subperm

variable {target : CompletionTarget} {input : AgentInput}

section

variable (holds : session.OutboxTracked)
include holds

theorem request (hTarget : completionTargetFromSessionAction action = some target)
    (hOutbox : after.actionOutbox = session.actionOutbox ++ [action])
    (hPending : after.outstandingActions.pending =
      session.outstandingActions.pending ++ [target]) : after.OutboxTracked := by
  have start : action.isStart := by
    rw [isStart_iff_target, hTarget]
    rfl
  constructor
  · rw [hOutbox]
    exact holds.ordered.append_request start
  · have hTargets : requestTargets (session.actionOutbox ++ [action]) =
        requestTargets session.actionOutbox ++ [target] := by
      simp [requestTargets, hTarget]
    rw [hOutbox, hPending, hTargets]
    exact (subperm_append_right _).mpr holds.tracked

theorem invalidateSessionWork : session.invalidateSessionWork.OutboxTracked := by
  have kept := holds.ordered.filter_isCancel
  rw [AgentSession.invalidateSessionWork, queueSessionAction]
  split
  · rename_i hNew
    have noCancel : session.actionOutbox.any isCancelSessionWork = false := by
      simpa using (Bool.and_eq_true_iff.mp hNew).2
    rw [noCancel] at kept
    apply @of_cancels _ true
    simp [kept]
  · exact of_cancels kept

theorem drainCoreAction (action : AgentAction) :
    (session.drainCoreAction action).OutboxTracked := by
  cases action with
  | cancelTurn => exact holds.invalidateSessionWork
  | requestModel | requestTool => exact holds.request rfl rfl rfl

theorem drive (stamps : Nat → EntryStamp) : (session.drive stamps).OutboxTracked := by
  have ending : ∀ (actions : List AgentAction) (session : AgentSession), session.OutboxTracked →
      (actions.foldl AgentSession.drainCoreAction session).OutboxTracked := by
    intro actions
    induction actions with
    | nil => exact fun _ holds => holds
    | cons action _ ih => exact fun session holds => ih _ (holds.drainCoreAction action)
  exact ending _ _ (holds.of_same rfl rfl)

end

theorem requestTargets_eraseP (hInput : completionTargetFromInput input = some target)
    (actions : List SessionAction) :
    requestTargets (actions.eraseP (·.matchesCompletion input)) =
      (requestTargets actions).erase target := by
  induction actions with
  | nil => rfl
  | cons action _ ih =>
    cases hAction : completionTargetFromSessionAction action with
    | none =>
      have other : action.matchesCompletion input = false := by
        simp [matchesCompletion, hAction]
      rw [eraseP_cons_of_neg (by simp [other])]
      simp only [requestTargets, filterMap_cons, hAction] at ih ⊢
      exact ih
    | some found =>
      by_cases same : found = target
      · have hit : action.matchesCompletion input := by
          simp [matchesCompletion, hAction, hInput, same]
        simp [requestTargets, hit, hAction, same]
      · have other : action.matchesCompletion input = false := by
          simp [matchesCompletion, hAction, hInput, same]
        rw [eraseP_cons_of_neg (by simp [other])]
        simp only [requestTargets, filterMap_cons, hAction] at ih ⊢
        rw [ih, erase_cons_tail (by simpa using same)]

theorem completion (holds : session.OutboxTracked)
    (hInput : completionTargetFromInput input = some target)
    (hOutbox : after.actionOutbox = session.actionOutbox.eraseP (·.matchesCompletion input))
    (hPending : after.outstandingActions.pending =
      session.outstandingActions.pending.erase target) : after.OutboxTracked := by
  constructor
  · rw [hOutbox]
    exact holds.ordered.eraseP_request rfl
  · rw [hOutbox, hPending, requestTargets_eraseP hInput]
    exact holds.tracked.erase target

theorem completionTargetFromInput_of_fromInput {completion : RecordedCompletion}
    (reports : RecordedCompletion.fromInput input = some completion) :
    completionTargetFromInput input = some completion.target := by
  cases input with
  | modelCompleted | modelFailed | toolCompleted =>
    cases reports
    rfl
  | _ => cases reports

section

variable (holds : session.OutboxTracked)
include holds

theorem enqueueAccepted (input : AgentInput) : (session.enqueueAccepted input).OutboxTracked := by
  have enqueues := session.enqueueAccepted_enqueues input
  generalize session.enqueueAccepted input = enqueued at enqueues
  cases enqueues with
  | stale => exact holds
  | queued => exact holds.of_same rfl rfl
  | interrupt => exact holds.invalidateSessionWork.of_same rfl rfl
  | completion reports =>
    exact holds.completion (completionTargetFromInput_of_fromInput reports) rfl rfl

theorem acceptModelMaxOutputTokens (actionId : ActionId) (turnId : TurnId)
    (assistant : AssistantMessage) (providerReplay : List ProviderReplayItem) (error : String)
    (stamps : Nat → EntryStamp) :
    (session.acceptModelMaxOutputTokens actionId turnId assistant providerReplay error
      stamps).OutboxTracked := by
  rcases session.acceptModelMaxOutputTokens_cases actionId turnId assistant providerReplay error
    stamps with ⟨_, stale⟩ | ⟨_, accepted⟩
  · rw [stale]
    exact holds
  · rw [accepted]
    have hInput : completionTargetFromInput (.modelCompleted actionId turnId assistant) =
        some { actionId, turnId, tool := none } := rfl
    exact holds.completion hInput rfl rfl

theorem prepares (step : session.Prepares after) : after.OutboxTracked := by
  cases step with
  | drained => exact holds.of_same rfl rfl
  | idle => exact holds.invalidateSessionWork
  | enqueued => exact holds.enqueueAccepted _
  | driven stamps => exact holds.drive stamps

theorem replaced {turnId : TurnId} {actionId : ActionId}
    (replaced : session.Replaced turnId actionId after) : after.OutboxTracked := by
  rcases replaced.outbox with empty | ⟨action, hTarget, queued⟩
  · exact @of_cancels _ false empty
  · have canceled : ({ session with
        outstandingActions := {}
        actionOutbox := session.actionOutbox.filter isCancelSessionWork } :
        AgentSession).OutboxTracked := of_cancels holds.ordered.filter_isCancel
    exact canceled.request hTarget queued replaced.pending

theorem call (call : SessionCall) : (session.call call).OutboxTracked := by
  cases call with
  | enqueueInput => exact call_enqueueInput_of holds (holds.enqueueAccepted _)
  | enqueueSessionInput input stamps =>
    cases input with
    | modelCompleted => exact holds.enqueueAccepted _
    | modelMaxOutputTokens actionId turnId assistant providerReplay error =>
      exact holds.acceptModelMaxOutputTokens actionId turnId assistant providerReplay error stamps
  | drive stamps => exact holds.drive stamps
  | drainPendingInputs | drainEvents => exact holds.of_same rfl rfl
  | drainActions => exact @of_cancels _ false rfl
  | resumeModelTurn | restoreCompactedRuntime =>
    exact call_of_replaces prepares (fun holds => holds.replaced) rfl holds

end

end OutboxTracked

theorem Constructed.outboxTracked {session : AgentSession} (constructed : session.Constructed) :
    session.OutboxTracked := by
  obtain ⟨_, _, empty⟩ := constructed.core_cases
  exact @OutboxTracked.of_cancels _ false empty

/-- In every session any calls lead to, the outbox holds one cancellation at most,
no action stands before it, and every request of the outbox is pending. Whatever a
caller runs, performing this outbox in order leaves it with the requests alone
when it cancels and adds them to the running work when it does not; and each of
the requests has its own place in the ledger. -/
theorem actionOutbox_in_order {session : AgentSession}
    (reaches : (machine Constructed).Reaches session) :
    session.actionOutbox.countP SessionAction.isCancelSessionWork ≤ 1 ∧
      (∀ done rest, session.actionOutbox = done ++ .cancelSessionWork :: rest → done = []) ∧
      (∀ action ∈ session.actionOutbox, ∀ target,
        completionTargetFromSessionAction action = some target →
          target ∈ session.outstandingActions.pending) ∧
      (∀ running, session.actionOutbox.foldl perform running =
        (if session.actionOutbox.any SessionAction.isCancelSessionWork then [] else running)
          ++ requestTargets session.actionOutbox) ∧
      (requestTargets session.actionOutbox).Subperm session.outstandingActions.pending := by
  have holds : session.OutboxTracked := by
    apply reaches.invariant
    · exact fun session constructed => constructed.outboxTracked
    · rintro session call after _ holds rfl
      exact holds.call call
  refine ⟨holds.ordered.count_le_one, ?_, ?_, holds.ordered.foldl_perform, holds.tracked⟩
  · intro done rest split
    exact holds.ordered.nothing_before split
  · intro action hAction target hTarget
    apply holds.tracked.subset
    exact mem_filterMap.mpr ⟨action, hAction, hTarget⟩

/-- An interrupted turn and the next one, not drained in between: the cancellation
comes first, then the request of the new turn. -/
theorem actionOutbox_in_order_interrupted :
    let stamps : Nat → Nat → EntryStamp :=
      fun used draw => { id := toString (used + draw), timestampMs := 0 }
    let session := new.calls [.enqueueInput (.followUp { message := .text "go" }),
        .drive (stamps 0), .enqueueInput .interrupt,
        .enqueueInput (.followUp { message := .text "again" }), .drive (stamps 10)]
    session.actionOutbox.map isStart = [false, true] ∧
      (requestTargets session.actionOutbox).Subperm session.outstandingActions.pending := by
  intro stamps session
  refine ⟨by decide, ?_⟩
  have started : (machine Constructed).Reaches new := .start .new
  exact (actionOutbox_in_order (started.calls _)).2.2.2.2

end AgentSession

end PiRelay.Session
