import PiRelay.AgentCore.Quiescence

/-! Where `drive` ends: at a finished batch, or where nothing is left that the state could
take from the mailbox. -/
namespace PiRelay.AgentCore

open AgentVocab List

namespace AgentCoreLoop

/-- Some iterations of `drive`. -/
def iterate (loop : AgentCoreLoop) (count : Nat) : AgentCoreLoop :=
  (fun now => now.driveOnce.1)^[count] loop

/-- The last of `count + 1` iterations took a tool result and finished its batch. -/
def EndsBatch (loop : AgentCoreLoop) (count : Nat) : Prop :=
  ∃ turnId tools nextResultIndex actionId result,
    (loop.iterate count).state = .runningTools turnId tools nextResultIndex ∧
      (loop.iterate count).nextEvent.1 = some (.toolCompleted actionId turnId result) ∧
      loop.drive.state = .readyToContinue turnId

/-- The notifications are processed, and no interrupt is requested. -/
def Caught (loop : AgentCoreLoop) : Prop :=
  loop.mailbox.notifications = [] ∧ loop.mailbox.interruptRequested = false

/-- No interrupt waits that has a turn to end, and no completion that the state accepts. -/
structure CompletionsConsumed (loop : AgentCoreLoop) : Prop where
  interrupt : (loop.mailbox.interruptRequested && loop.state.isActive) = false
  completions : ∀ event ∈ loop.mailbox.notifications, event.isCompletion = true →
    loop.state.step event loop.nextActionId = emptyTransition loop.state loop.nextActionId

/-- Nothing waits in the mailbox that the state could consume. -/
structure AllConsumed (loop : AgentCoreLoop) : Prop extends CompletionsConsumed loop where
  inputs : ∀ input ∈ loop.mailbox.drainPendingInputs.1, loop.state.takesInput input = false

/-- The situations in which a drive of `count + 1` iterations ends. -/
inductive EndsAt (loop : AgentCoreLoop) (count : Nat) : Prop where
  | batchDone (reached : loop.EndsBatch count) (consumed : loop.drive.CompletionsConsumed)
  | running (active : loop.drive.state.isActive = true)
      (notReady : loop.drive.isReadyToContinue = false) (caught : loop.drive.Caught)
      (consumed : loop.drive.AllConsumed)
  | idle (isIdle : loop.drive.state = .idle) (empty : loop.drive.mailbox = {})
      (consumed : loop.drive.AllConsumed)

variable {loop : AgentCoreLoop}

theorem completionsConsumed_of_ready {turnId : TurnId}
    (ready : loop.state = .readyToContinue turnId)
    (quiet : loop.mailbox.interruptRequested = false) : loop.CompletionsConsumed where
  interrupt := by rw [quiet, Bool.false_and]
  completions := by
    intro event _ completion
    rw [ready]
    cases event with
    | modelCompleted | modelFailed | toolCompleted => rfl
    | _ => cases completion

theorem completionsConsumed_of_caught (caught : loop.Caught) : loop.CompletionsConsumed where
  interrupt := by rw [caught.2, Bool.false_and]
  completions := by
    intro event mem
    rw [caught.1] at mem
    cases mem

theorem allConsumed_of_takes {mailbox : Mailbox} {nextTurnId : TurnId}
    (takes : mailbox.Takes nextTurnId loop.state none loop.mailbox) :
    loop.AllConsumed ∧ loop.Caught ∧ (loop.state = .idle → loop.mailbox = {}) := by
  have caught : loop.Caught := ⟨takes.settled_of_none, takes.quiet⟩
  refine ⟨⟨completionsConsumed_of_caught caught, ?_⟩, caught, ?_⟩
  · intro input mem
    obtain ⟨mailboxOf, state, lastTurnId, nextActionId, actions, items⟩ := loop
    cases takes with
    | emptyIdle _ noSteer noFollowUp noObservation =>
      simp [Mailbox.drainPendingInputs, noSteer, noFollowUp, noObservation] at mem
    | waiting active notReady =>
      have isInput : (∃ content, input = .steer content) ∨ (∃ content, input = .followUp content) ∨
          ∃ observation, input = .daemonObservation observation := by
        simp only [Mailbox.drainPendingInputs, mem_append, mem_map] at mem
        rcases mem with (⟨content, -, rfl⟩ | ⟨content, -, rfl⟩) | ⟨observation, -, rfl⟩
        · exact .inl ⟨content, rfl⟩
        · exact .inr (.inl ⟨content, rfl⟩)
        · exact .inr (.inr ⟨observation, rfl⟩)
      cases state with
      | idle => cases active
      | readyToContinue turnId => exact absurd rfl (notReady turnId)
      | runningModel | runningTools => rcases isInput with ⟨_, rfl⟩ | ⟨_, rfl⟩ | ⟨_, rfl⟩ <;> rfl
  · intro isIdle
    obtain ⟨mailboxOf, state, lastTurnId, nextActionId, actions, items⟩ := loop
    subst isIdle
    cases takes with
    | emptyIdle settled noSteer noFollowUp noObservation =>
      simp [settled, noSteer, noFollowUp, noObservation]
    | waiting active => cases active

theorem endsBatch_of_ready {count : Nat} (stops : (loop.iterate count).driveOnce.2 = false)
    (result : loop.drive = (loop.iterate count).driveOnce.1) {turnId : TurnId}
    (ready : loop.drive.state = .readyToContinue turnId) : loop.EndsBatch count := by
  rcases hNext : (loop.iterate count).nextEvent with ⟨_ | event, mailbox⟩
  · have takes := takes_of_nextEvent hNext
    rw [result, driveOnce_of_none hNext] at ready
    exact absurd ready (takes.notReady_of_none turnId)
  · rw [result, driveOnce_of_some hNext] at ready
    have stepReady : ((loop.iterate count).state.step event
        (loop.iterate count).nextActionId).state = .readyToContinue turnId := ready
    have again := driveOnce_again_iff hNext
    rw [stops] at again
    rcases AgentState.step_cases (loop.iterate count).state event
      (loop.iterate count).nextActionId with ignored | fires
    · exact absurd (again.mpr (.inl (by rw [ignored]; exact ⟨rfl, rfl⟩))) Bool.false_ne_true
    · generalize hTransition : (loop.iterate count).state.step event
        (loop.iterate count).nextActionId = transition at fires stepReady
      generalize hState : (loop.iterate count).state = state at fires
      cases fires with
      | recordResult turn tools nextResultIndex _ tool answer =>
        have sameTurn : turnId = turn := by
          rw [AgentState.recordResult] at stepReady
          split at stepReady
          · exact (AgentState.readyToContinue.inj stepReady).symm
          · cases stepReady
        subst sameTurn
        refine ⟨turnId, tools, nextResultIndex, tool.actionId, answer, hState, ?_, ?_⟩
        · rw [hNext]
        · rw [result, driveOnce_of_some hNext, apply, hTransition]
          exact stepReady
      | startTurn | startObservation | steer | observation | continueModel =>
        simp [requestModel, ActionId.takeNext] at stepReady
      | _ =>
        cases stepReady

/-- A drive is finitely many iterations, and it ends at a finished batch or with nothing left
that the state could consume. -/
theorem drive_ends (loop : AgentCoreLoop) :
    ∃ count, count ≤ loop.pending ∧
      (∀ earlier < count, (loop.iterate earlier).driveOnce.2 = true) ∧
      (loop.iterate count).driveOnce.2 = false ∧
      loop.drive = (loop.iterate count).driveOnce.1 ∧ loop.EndsAt count := by
  obtain ⟨count, bounded, goesOn, stops, result⟩ := driveLoop.run_terminates loop
  have isResult : loop.drive = (loop.iterate count).driveOnce.1 := result
  refine ⟨count, bounded, goesOn, stops, isResult, ?_⟩
  cases hReady : loop.drive.isReadyToContinue with
  | true =>
    cases hState : loop.drive.state with
    | readyToContinue =>
      exact .batchDone (endsBatch_of_ready stops isResult hState)
        (completionsConsumed_of_ready hState loop.drive_quiet)
    | _ => simp [isReadyToContinue, hState] at hReady
  | false =>
    obtain ⟨_, _, takes⟩ := loop.drive_exhausted hReady
    obtain ⟨consumed, caught, whenIdle⟩ := allConsumed_of_takes takes
    cases hActive : loop.drive.state.isActive with
    | true => exact .running hActive hReady caught consumed
    | false =>
      have isIdle : loop.drive.state = .idle := by
        cases hState : loop.drive.state with
        | idle => rfl
        | _ =>
          simp [AgentState.isActive, hState] at hActive
      exact .idle isIdle (whenIdle isIdle) consumed

/-- A batch of one call, its result among the notifications, and a queued steer. -/
def steeredBatch : AgentCoreLoop :=
  let call : ToolCall := ⟨"call", "read", "{}"⟩
  { AgentCoreLoop.new with
    state := .runningTools 1 [⟨call, 1, none⟩] 0
    mailbox :=
      { notifications := [.toolCompleted 1 1 (.crashed call.id call.toolName)]
        steer := [⟨.text "go on"⟩] } }

/-- The drive ends at the finished batch, whose state could take the steer. -/
theorem steer_left_at_finished_batch : ¬ ∀ loop : AgentCoreLoop, loop.drive.AllConsumed := by
  intro consumed
  have left := (consumed steeredBatch).inputs (.steer ⟨.text "go on"⟩) (by decide)
  revert left
  decide

end AgentCoreLoop

end PiRelay.AgentCore
