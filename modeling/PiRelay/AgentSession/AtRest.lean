import Mathlib.Data.List.Nodup
import PiRelay.AgentCore.Quiescence
import PiRelay.AgentSession.LedgerAgreement
import PiRelay.AgentSession.TurnBoundary

/-! A session at rest: its core has nothing to go on with, and core, store and
ledger say the same about the turn. Every input leaves it at rest after a drive,
except the last result of a batch of tools, which takes another one. -/
namespace PiRelay.AgentCore

open AgentVocab List

theorem AgentState.waitsFor_nodup {state : AgentState} (distinct : state.DistinctCalls) :
    state.waitsFor.Nodup := by
  cases state with
  | idle | readyToContinue => exact nodup_nil
  | runningModel => exact nodup_singleton _
  | runningTools turnId tools index =>
    have keys : ((openTools tools index).map (·.call.key)).Nodup := by
      apply List.Nodup.sublist _ distinct
      exact (filter_sublist.trans (drop_sublist _ _)).map _
    have named : ((openTools tools index).map (RunningTool.target turnId)).map
        (fun target => target.tool.map fun named => (named.id, named.name)) =
        ((openTools tools index).map (·.call.key)).map some := by
      simp [RunningTool.target, RunningTool.named, ToolCall.key]
    apply List.Nodup.of_map fun target => target.tool.map fun named => (named.id, named.name)
    rw [waitsFor, named]
    exact keys.map fun _ _ same => Option.some.inj same

end PiRelay.AgentCore

namespace PiRelay.Session

open AgentVocab AgentCore

namespace AgentSession

structure Consistent (session : AgentSession) : Prop where
  inStep : session.InStep
  ledger : session.LedgerAgrees

structure AtRest (session : AgentSession) : Prop extends session.Consistent where
  rests : session.core.Rests

/-- All results of a batch are in and nothing else has arrived. -/
structure AtBatchEnd (session : AgentSession) : Prop extends session.Consistent where
  ready : session.core.isReadyToContinue = true
  settled : session.core.mailbox.notifications = []

variable {session : AgentSession} {input : AgentInput}

namespace Consistent

section

variable (consistent : session.Consistent)
include consistent

theorem enqueueAccepted (distinct : InputDistinct input) :
    (session.enqueueAccepted input).Consistent :=
  ⟨consistent.inStep.enqueueAccepted input, consistent.ledger.enqueueAccepted distinct⟩

theorem drive (stamps : Nat → EntryStamp) : (session.drive stamps).Consistent :=
  ⟨consistent.inStep.drive stamps, consistent.ledger.drive stamps⟩

theorem drive_atRest (stamps : Nat → EntryStamp) (rests : session.core.drive.Rests) :
    (session.drive stamps).AtRest where
  toConsistent := consistent.drive stamps
  rests := by
    rw [drive_core]
    exact ⟨rests.exhausted, rests.waits⟩

end

end Consistent

namespace AtBatchEnd

theorem drive (atBatchEnd : session.AtBatchEnd) (stamps : Nat → EntryStamp) :
    (session.drive stamps).AtRest :=
  atBatchEnd.drive_atRest stamps (AgentCoreLoop.drive_of_ready atBatchEnd.ready atBatchEnd.settled)

theorem enqueueAccepted (atBatchEnd : session.AtBatchEnd) (distinct : InputDistinct input)
    (noReport : RecordedCompletion.fromInput input = none) :
    (session.enqueueAccepted input).AtBatchEnd where
  toConsistent := atBatchEnd.toConsistent.enqueueAccepted distinct
  ready := by
    rcases session.enqueueAccepted_core input with hCore | hCore
    all_goals
      rw [hCore]
      exact atBatchEnd.ready
  settled := by
    have noCompletion := RecordedCompletion.completion_of_none noReport
    rcases session.enqueueAccepted_core input with hCore | hCore
    · rw [hCore]
      exact atBatchEnd.settled
    · rw [hCore, AgentCoreLoop.enqueueInput, Mailbox.pushInput_notifications, noCompletion,
        atBatchEnd.settled]
      rfl

end AtBatchEnd

namespace AtRest

section

variable (atRest : session.AtRest)
include atRest

theorem pending_perm : session.outstandingActions.pending.Perm session.core.state.waitsFor := by
  have balanced := atRest.ledger.accounts.balanced
  rw [atRest.ledger.drained] at balanced
  cases balanced with
  | live _ accounts =>
    rw [notifiedTargets, atRest.rests.settled] at accounts
    simpa [tracked] using accounts
  | cleared empty ending =>
    have hPending : session.outstandingActions.pending = [] := empty
    rcases ending with requested | idle
    · rw [atRest.rests.quiet] at requested
      cases requested
    · rw [hPending, idle]
      exact List.Perm.refl _

theorem pending_nodup : session.outstandingActions.pending.Nodup :=
  atRest.pending_perm.nodup_iff.mpr (AgentState.waitsFor_nodup atRest.ledger.accounts.distinct)

theorem idle (nothing : session.outstandingActions.pending = []) :
    session.core.state = .idle ∧ session.transcriptStore.isTurnBoundary := by
  have waitsForNothing : session.core.state.waitsFor = [] := by
    have balance := atRest.pending_perm
    rw [nothing] at balance
    exact balance.nil_eq.symm
  have idle := atRest.rests.idle waitsForNothing
  refine ⟨idle, ?_⟩
  rw [← atRest.inStep.agrees, AgentCoreLoop.isIdle, idle]
  rfl

/-- A drive at rest changes nothing. -/
theorem drive_unchanged (stamps : Nat → EntryStamp) :
    (session.drive stamps).core = session.core ∧
      (session.drive stamps).transcriptStore = session.transcriptStore ∧
      (session.drive stamps).outstandingActions.pending = session.outstandingActions.pending := by
  have noItems := atRest.inStep.drained
  have noActions := atRest.ledger.drained
  have same := atRest.rests.drive_eq
  refine ⟨?_, ?_, ?_⟩
  · rw [drive_core, same]
    generalize session.core = core at noItems noActions
    obtain ⟨_, _, _, _, actionOutbox, transcriptItemOutbox⟩ := core
    obtain rfl : actionOutbox = [] := noActions
    obtain rfl : transcriptItemOutbox = [] := noItems
    rfl
  · rw [drive_transcriptStore, same, noItems]
    rfl
  · rw [drive_pending, same, noActions]
    rfl

theorem drive (stamps : Nat → EntryStamp) : (session.drive stamps).AtRest :=
  atRest.drive_atRest stamps (by rw [atRest.rests.drive_eq]; exact atRest.rests)

theorem enqueueAccepted_drive (distinct : InputDistinct input)
    (noTool : input.isToolCompletion = false) (stamps : Nat → EntryStamp) :
    ((session.enqueueAccepted input).drive stamps).AtRest := by
  apply (atRest.toConsistent.enqueueAccepted distinct).drive_atRest
  rcases session.enqueueAccepted_core input with hCore | hCore
  · rw [hCore, atRest.rests.drive_eq]
    exact atRest.rests
  · rw [hCore]
    exact atRest.rests.drive_enqueue noTool

theorem toolCompleted_drive (actionId : ActionId) (turnId : TurnId) (result : ToolResultMessage)
    (stamps : Nat → EntryStamp) :
    ((session.enqueueAccepted (.toolCompleted actionId turnId result)).drive stamps).AtRest ∨
      ((session.enqueueAccepted (.toolCompleted actionId turnId result)).drive stamps).AtBatchEnd := by
  have distinct : InputDistinct (.toolCompleted actionId turnId result) := .of_plain (by simp)
  have consistent := atRest.toConsistent.enqueueAccepted distinct
  rcases session.enqueueAccepted_core (.toolCompleted actionId turnId result) with hCore | hCore
  · left
    apply consistent.drive_atRest
    rw [hCore, atRest.rests.drive_eq]
    exact atRest.rests
  · rcases atRest.rests.drive_toolCompleted actionId turnId result with rests | ⟨ready, settled⟩
    · left
      apply consistent.drive_atRest
      rw [hCore]
      exact rests
    · right
      refine ⟨consistent.drive stamps, ?_, ?_⟩
      · rw [drive_core, hCore]
        exact ready
      · rw [drive_core, hCore]
        exact settled

theorem interrupt_pending (empty : session.core.mailbox = {}) (stamps : Nat → EntryStamp) :
    ((session.enqueueAccepted .interrupt).drive stamps).outstandingActions.pending = [] := by
  have distinct : InputDistinct .interrupt := .of_plain (by simp)
  have driven := atRest.enqueueAccepted_drive distinct rfl stamps
  have idle : ((session.enqueueAccepted .interrupt).drive stamps).core.state = .idle := by
    rw [drive_core]
    apply AgentCoreLoop.drive_interrupt
    rw [invalidateSessionWork_core]
    exact empty
  have balance := driven.pending_perm
  rw [idle] at balance
  exact balance.eq_nil

theorem modelCompleted_shown {actionId : ActionId} {turnId : TurnId}
    (pending : { actionId, turnId, tool := none } ∈ session.outstandingActions.pending)
    (assistant : AssistantMessage) :
    .assistantMessage assistant ∈
      (session.enqueueAccepted
        (.modelCompleted actionId turnId assistant)).core.drive.transcriptItemOutbox := by
  have hCore : (session.enqueueAccepted (.modelCompleted actionId turnId assistant)).core =
      session.core.enqueueInput (.modelCompleted actionId turnId assistant) := by
    simp [AgentSession.enqueueAccepted, acceptAgentInput, OutstandingActions.acceptCompletion,
      RecordedCompletion.fromInput, RecordedCompletion.target, pending,
      dropCompletedActionFromOutbox]
  have hNext : (session.core.enqueueInput (.modelCompleted actionId turnId assistant)).nextEvent.1 =
      some (.modelCompleted actionId turnId assistant) := by
    simp [AgentCoreLoop.nextEvent, AgentCoreLoop.enqueueInput, Mailbox.nextEvent,
      Mailbox.pushInput, Mailbox.pushNotificationBack, atRest.rests.settled, atRest.rests.quiet]
  have waited := atRest.pending_perm.subset pending
  have acts := (AgentState.actsOn_iff_mem_waitsFor atRest.ledger.accounts.distinct _).mpr waited
  have hTarget : (AgentEvent.modelCompleted actionId turnId assistant).target =
    some { actionId, turnId, tool := none } := rfl
  have fires := AgentState.fires_of_actsOn acts hTarget session.core.nextActionId
  rw [hCore]
  refine AgentCoreLoop.drive_emits (Prod.ext hNext rfl) ?_
  show _ ∈ (session.core.state.step _ session.core.nextActionId).items
  generalize session.core.state.step _ session.core.nextActionId = transition at fires ⊢
  generalize session.core.state = state at fires
  cases fires with
  | finish | startTools => exact (.head _)

end

end AtRest

section

variable (empty : session.core.mailbox = {})
include empty

theorem enqueueAccepted_drive_mailbox (takes : session.core.state.takesInput input)
    (stamps : Nat → EntryStamp) :
    ((session.enqueueAccepted input).drive stamps).core.mailbox = {} := by
  rw [drive_core]
  rcases session.enqueueAccepted_core input with hCore | hCore
  · rw [hCore]
    exact AgentCoreLoop.drive_mailbox_of_empty empty
  · rw [hCore]
    exact AgentCoreLoop.drive_enqueue_mailbox empty takes

theorem drive_mailbox (stamps : Nat → EntryStamp) : (session.drive stamps).core.mailbox = {} := by
  rw [drive_core]
  exact AgentCoreLoop.drive_mailbox_of_empty empty

theorem enqueueAccepted_shown {item : TranscriptItem}
    (takes : session.core.state.takesInput input) (hItem : input.item = some item) :
    item ∈ (session.enqueueAccepted input).core.drive.transcriptItemOutbox := by
  have hCore : (session.enqueueAccepted input).core = session.core.enqueueInput input := by
    cases input with
    | steer | followUp | daemonObservation => rfl
    | _ => cases hItem
  rw [hCore]
  exact AgentCoreLoop.drive_shows empty takes hItem

end

end AgentSession

end PiRelay.Session
