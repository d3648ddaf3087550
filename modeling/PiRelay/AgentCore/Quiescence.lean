import PiRelay.AgentCore.Requests

/-! A loop at rest: it has nothing to go on with, and while tools run one of them
is open. Given an input and driven, it is at rest again, unless the input ends a
batch of tools; then it takes one more drive. -/
namespace PiRelay.AgentCore

open AgentVocab List

/-- While tools run, one of them is still waited for. -/
def AgentState.Waits (state : AgentState) : Prop :=
  state.waitsFor = [] → ∀ turnId tools index, state ≠ .runningTools turnId tools index

theorem AgentState.Waits.startTools (turnId : TurnId) {calls : List ToolCall}
    (someCalls : calls ≠ []) (next : ActionId) :
    (AgentState.runningTools turnId (AgentCore.startTools turnId calls next).tools 0).Waits := by
  intro nothing
  exfalso
  cases calls with
  | nil => exact someCalls rfl
  | cons => simp [waitsFor, openTools, AgentCore.startTools, RunningTool.hasResult] at nothing

theorem AgentState.Waits.recordResult {turnId : TurnId} {tools : List RunningTool}
    {index position : Nat} {result : ToolResultMessage} {next : ActionId}
    (inRange : index ≤ tools.length) :
    (AgentState.recordResult turnId tools index position result next).state.Waits := by
  intro nothing
  rw [recordResult_waitsFor inRange, map_eq_nil_iff, openTools, filter_eq_nil_iff] at nothing
  have allTaken : takenTools (tools.modify position (RunningTool.store result)) index =
      (tools.modify position (RunningTool.store result)).drop index := by
    apply takeWhile_eq_self_iff.mpr
    intro tool mem
    simpa using nothing tool mem
  have done : index + (takenTools (tools.modify position (RunningTool.store result)) index).length =
      tools.length := by
    rw [allTaken, length_drop, length_modify]
    omega
  rw [recordResult_eq]
  simp [done]

variable {state : AgentState}

theorem AgentState.Waits.step (waits : state.Waits) (event : AgentEvent) (next : ActionId) :
    (state.step event next).state.Waits := by
  have never : ∀ other : AgentState,
      (∀ turnId tools index, other ≠ .runningTools turnId tools index) → other.Waits :=
    fun _ apart _ => apart
  rcases AgentState.step_cases state event next with ignored | fires
  · rw [ignored]
    exact waits
  · generalize state.step event next = transition at fires
    cases fires with
    | startTools turnId _ _ someCalls => exact .startTools turnId someCalls next
    | recordResult _ _ _ _ _ _ _ hTool =>
      apply Waits.recordResult
      have inRange := (List.getElem?_eq_some_iff.mp hTool).1
      omega
    | finish | fail | interruptReady | interruptModel | interruptTools => exact never _ (by simp)
    | _ =>
      exact never _ (by simp [AgentCore.requestModel, ActionId.takeNext])

theorem AgentState.step_ready {event : AgentEvent} {next : ActionId} {turnId : TurnId}
    (notReady : ∀ turnId, state ≠ .readyToContinue turnId)
    (ready : (state.step event next).state = .readyToContinue turnId) :
    ∃ actionId turnId result, event = .toolCompleted actionId turnId result := by
  rcases AgentState.step_cases state event next with ignored | fires
  · rw [ignored] at ready
    exact absurd ready (notReady turnId)
  · generalize state.step event next = transition at fires ready
    cases fires with
    | recordResult => exact ⟨_, _, _, rfl⟩
    | steer | observation | continueModel | interruptReady => exact absurd rfl (notReady _)
    | startTurn | startObservation => simp [AgentCore.requestModel, ActionId.takeNext] at ready
    | _ => cases ready

/-- The inputs that do not have to wait in the mailbox. -/
def AgentState.takesInput (state : AgentState) : AgentInput → Bool
  | .steer _ | .daemonObservation _ =>
    match state with
    | .idle | .readyToContinue _ => true
    | .runningModel _ _ | .runningTools _ _ _ => false
  | .followUp _ =>
    match state with
    | .idle => true
    | .runningModel _ _ | .runningTools _ _ _ | .readyToContinue _ => false
  | .interrupt | .modelCompleted _ _ _ | .modelFailed _ _ _ | .toolCompleted _ _ _ => true

def AgentInput.item : AgentInput → Option TranscriptItem
  | .steer content | .followUp content => some (.userMessage content.message)
  | .daemonObservation observation => some (.daemonToolObservation observation)
  | .interrupt | .modelCompleted _ _ _ | .modelFailed _ _ _ | .toolCompleted _ _ _ => none

def AgentInput.isToolCompletion : AgentInput → Bool
  | .toolCompleted _ _ _ => true
  | _ => false

theorem Mailbox.Takes.nextEvent_none {mailbox after : Mailbox} {nextTurnId : TurnId}
    (takes : mailbox.Takes nextTurnId state none after) (turnId : TurnId) :
    after.nextEvent state turnId = (none, after) := by
  cases takes with
  | emptyIdle settled noSteer noFollowUp noObservation =>
    simp [nextEvent, settled, noSteer, noFollowUp, noObservation, popUserInputEntry,
      popDaemonObservationEntry]
  | waiting active notReady _ settled =>
    cases state with
    | idle => cases active
    | readyToContinue turnId => exact absurd rfl (notReady turnId)
    | runningModel | runningTools => simp [nextEvent, settled]

theorem Mailbox.Takes.notReady_of_none {mailbox after : Mailbox} {nextTurnId : TurnId}
    (takes : mailbox.Takes nextTurnId state none after) (turnId : TurnId) :
    state ≠ .readyToContinue turnId := by
  cases takes with
  | emptyIdle => simp
  | waiting _ notReady => exact notReady turnId

namespace AgentCoreLoop

structure Rests (loop : AgentCoreLoop) : Prop where
  exhausted : loop.nextEvent = (none, loop.mailbox)
  waits : loop.state.Waits

variable {loop : AgentCoreLoop}

/-- Nothing in the loop can end a batch. -/
structure Calm (loop : AgentCoreLoop) : Prop where
  waits : loop.state.Waits
  notReady : ∀ turnId, loop.state ≠ .readyToContinue turnId
  noTool : ∀ actionId turnId result, .toolCompleted actionId turnId result ∉ loop.mailbox.notifications

theorem Calm.driveOnce (calm : loop.Calm) : loop.driveOnce.1.Calm := by
  rcases hNext : loop.nextEvent with ⟨_ | event, mailbox⟩
  · have takes := takes_of_nextEvent hNext
    rw [driveOnce_of_none hNext]
    exact
      { waits := calm.waits
        notReady := calm.notReady
        noTool := fun actionId turnId result mem =>
          calm.noTool actionId turnId result (takes.notifications_subset mem) }
  · have takes := takes_of_nextEvent hNext
    rw [driveOnce_of_some hNext]
    refine
      { waits := calm.waits.step event loop.nextActionId
        notReady := ?_
        noTool := fun actionId turnId result mem =>
          calm.noTool actionId turnId result (takes.notifications_subset mem) }
    intro turnId ready
    obtain ⟨actionId, _, result, rfl⟩ := AgentState.step_ready calm.notReady ready
    exact calm.noTool _ _ _ (takes.completion_mem rfl)

theorem Calm.drive (calm : loop.Calm) : loop.drive.Rests := by
  have after : loop.drive.Calm :=
    driveLoop.run_invariant (motive := Calm) (fun _ calm => calm.driveOnce) calm
  have notReady : loop.drive.isReadyToContinue = false := by
    rw [isReadyToContinue]
    cases hState : loop.drive.state with
    | readyToContinue turnId => exact absurd hState (after.notReady turnId)
    | _ => rfl
  obtain ⟨_, _, takes⟩ := loop.drive_exhausted notReady
  exact ⟨takes.nextEvent_none _, after.waits⟩

theorem drive_of_ready (ready : loop.isReadyToContinue)
    (settled : loop.mailbox.notifications = []) : loop.drive.Rests := by
  obtain ⟨turnId, hState⟩ : ∃ turnId, loop.state = .readyToContinue turnId := by
    rw [isReadyToContinue] at ready
    cases hState : loop.state with
    | readyToContinue turnId => exact ⟨turnId, rfl⟩
    | _ => rw [hState] at ready; cases ready
  rcases hNext : loop.nextEvent with ⟨_ | event, mailbox⟩
  · exact absurd hState ((takes_of_nextEvent hNext).notReady_of_none turnId)
  have takes := takes_of_nextEvent hNext
  have hOnce := driveOnce_of_some hNext
  have notReady : ∀ other, (loop.state.step event loop.nextActionId).state ≠
      .readyToContinue other := by
    intro other
    rw [hState] at takes ⊢
    cases takes with
    | notification _ first => rw [settled] at first; cases first
    | _ =>
      simp [AgentState.step, AgentState.onInterrupt, AgentState.onSteer,
        AgentState.onDaemonObservation, AgentState.onContinueModel, requestModel,
        ActionId.takeNext]
  have again : loop.driveOnce.2 := (driveOnce_again_iff hNext).mpr (.inr notReady)
  rw [drive_of_again again, hOnce]
  apply Calm.drive
  refine ⟨?_, notReady, ?_⟩
  · have waits : loop.state.Waits := by
      rw [hState]
      intro _ _ _ _
      simp
    exact waits.step event loop.nextActionId
  · intro actionId turnId result mem
    have before := takes.notifications_subset mem
    rw [settled] at before
    cases before

namespace Rests

section

variable (rests : loop.Rests)
include rests

theorem drive_eq : loop.drive = loop := by
  have hOnce := driveOnce_of_none rests.exhausted
  rw [drive_of_stop (congrArg Prod.snd hOnce), hOnce]

theorem settled : loop.mailbox.notifications = [] :=
  (takes_of_nextEvent rests.exhausted).settled_of_none

theorem quiet : loop.mailbox.interruptRequested = false :=
  (takes_of_nextEvent rests.exhausted).quiet

theorem notReady (turnId : TurnId) : loop.state ≠ .readyToContinue turnId := by
  intro ready
  have takes := takes_of_nextEvent rests.exhausted
  rw [ready] at takes
  exact takes.notReady_of_none turnId rfl

theorem idle (nothing : loop.state.waitsFor = []) : loop.state = .idle := by
  cases hState : loop.state with
  | idle => rfl
  | readyToContinue turnId => exact absurd hState (rests.notReady turnId)
  | runningModel => rw [hState] at nothing; cases nothing
  | runningTools turnId tools index => exact absurd hState (rests.waits nothing turnId tools index)

theorem drive_enqueue {input : AgentInput} (noTool : input.isToolCompletion = false) :
    (loop.enqueueInput input).drive.Rests := by
  apply Calm.drive
  refine ⟨rests.waits, rests.notReady, ?_⟩
  intro actionId turnId result mem
  rw [enqueueInput, Mailbox.pushInput_notifications, rests.settled] at mem
  cases input with
  | toolCompleted => cases noTool
  | modelCompleted | modelFailed => cases mem_singleton.mp mem
  | _ => cases mem

/-- After the answer of a tool the drive comes to rest or is ready. -/
theorem drive_toolCompleted (actionId : ActionId) (turnId : TurnId) (result : ToolResultMessage) :
    (loop.enqueueInput (.toolCompleted actionId turnId result)).drive.Rests ∨
      ((loop.enqueueInput (.toolCompleted actionId turnId result)).drive.isReadyToContinue ∧
        (loop.enqueueInput (.toolCompleted actionId turnId result)).drive.mailbox.notifications =
          []) := by
  have hNext : (loop.enqueueInput (.toolCompleted actionId turnId result)).nextEvent =
      (some (.toolCompleted actionId turnId result),
        { loop.mailbox with notifications := [], interruptRequested := false }) := by
    simp [nextEvent, enqueueInput, Mailbox.nextEvent, Mailbox.pushInput,
      Mailbox.pushNotificationBack, rests.settled, rests.quiet]
  have hOnce := driveOnce_of_some hNext
  have waits : (loop.enqueueInput (.toolCompleted actionId turnId result)).driveOnce.1.state.Waits := by
    rw [hOnce]
    exact rests.waits.step (.toolCompleted actionId turnId result) loop.nextActionId
  have settled : (loop.enqueueInput
      (.toolCompleted actionId turnId result)).driveOnce.1.mailbox.notifications = [] := by
    rw [hOnce]
    rfl
  cases again : (loop.enqueueInput (.toolCompleted actionId turnId result)).driveOnce.2 with
  | false =>
    right
    rw [drive_of_stop again]
    refine ⟨?_, settled⟩
    rw [← Bool.not_eq_true, driveOnce_again_iff hNext, not_or, not_forall] at again
    obtain ⟨_, other, ready⟩ := again
    rw [hOnce, isReadyToContinue, apply, not_not.mp ready]
  | true =>
    left
    rw [drive_of_again again]
    cases ready : (loop.enqueueInput
        (.toolCompleted actionId turnId result)).driveOnce.1.isReadyToContinue with
    | true => exact drive_of_ready ready settled
    | false =>
      apply Calm.drive
      refine ⟨waits, ?_, by simp [settled]⟩
      intro other hState
      rw [isReadyToContinue, hState] at ready
      cases ready

end

end Rests

theorem driveOnce_mailbox (loop : AgentCoreLoop) : loop.driveOnce.1.mailbox = loop.nextEvent.2 := by
  obtain ⟨_, hOnce, _⟩ := loop.driveOnce_cases
  rw [hOnce]
  rfl

theorem drive_mailbox_of_empty (empty : loop.mailbox = {}) : loop.drive.mailbox = {} := by
  refine driveLoop.run_invariant (motive := fun loop => loop.mailbox = {}) ?_ empty
  intro loop empty
  have hBody : (driveLoop.body loop).1.mailbox = loop.nextEvent.2 := loop.driveOnce_mailbox
  rw [hBody, nextEvent, empty]
  cases loop.state <;> rfl

theorem drive_enqueue_mailbox (empty : loop.mailbox = {}) {input : AgentInput}
    (takes : loop.state.takesInput input) : (loop.enqueueInput input).drive.mailbox = {} := by
  have emptied : (loop.enqueueInput input).driveOnce.1.mailbox = {} := by
    rw [driveOnce_mailbox, nextEvent, enqueueInput, empty]
    cases hState : loop.state <;> cases input <;> first
        | rfl
        | (rw [hState] at takes; cases takes)
  cases again : (loop.enqueueInput input).driveOnce.2 with
  | false =>
    rw [drive_of_stop again]
    exact emptied
  | true =>
    rw [drive_of_again again]
    exact drive_mailbox_of_empty emptied

theorem drive_emits {event : AgentEvent} {mailbox : Mailbox} {item : TranscriptItem}
    (hNext : loop.nextEvent = (some event, mailbox))
    (emits : item ∈ (loop.state.step event loop.nextActionId).items) :
    item ∈ loop.drive.transcriptItemOutbox := by
  have first : item ∈ loop.driveOnce.1.transcriptItemOutbox := by
    rw [driveOnce_of_some hNext]
    exact mem_append_right _ emits
  cases again : loop.driveOnce.2 with
  | false =>
    rw [drive_of_stop again]
    exact first
  | true =>
    rw [drive_of_again again]
    refine driveLoop.run_invariant (motive := fun loop => item ∈ loop.transcriptItemOutbox) ?_ first
    intro loop mem
    obtain ⟨transition, hOnce, _⟩ := loop.driveOnce_cases
    have hBody : (driveLoop.body loop).1 = loop.apply loop.nextEvent.2 transition := hOnce
    rw [hBody]
    exact mem_append_left _ mem

/-- An input that the state takes is shown by the drive. -/
theorem drive_shows (empty : loop.mailbox = {}) {input : AgentInput} {item : TranscriptItem}
    (takes : loop.state.takesInput input) (hItem : input.item = some item) :
    item ∈ (loop.enqueueInput input).drive.transcriptItemOutbox := by
  have opens : ∃ event, (loop.enqueueInput input).nextEvent.1 = some event ∧
      item ∈ (loop.state.step event loop.nextActionId).items := by
    rw [nextEvent, enqueueInput, empty]
    cases input with
    | steer content | daemonObservation content =>
      cases hItem
      cases hState : loop.state with
      | idle => exact ⟨_, rfl, .tail _ (.head _)⟩
      | readyToContinue => exact ⟨_, rfl, mem_singleton_self _⟩
      | runningModel | runningTools => rw [hState] at takes; cases takes
    | followUp =>
      cases hItem
      cases hState : loop.state with
      | idle => exact ⟨_, rfl, .tail _ (.head _)⟩
      | _ => rw [hState] at takes; cases takes
    | _ => cases hItem
  obtain ⟨event, hEvent, emits⟩ := opens
  exact drive_emits (Prod.ext hEvent rfl) emits

theorem drive_interrupt (empty : loop.mailbox = {}) :
    (loop.enqueueInput .interrupt).drive.state = .idle := by
  have ends : ∃ transition, (loop.enqueueInput .interrupt).driveOnce.1 =
      (loop.enqueueInput .interrupt).apply {} transition ∧ transition.state = .idle := by
    cases hState : loop.state with
    | idle =>
      have hNext : (loop.enqueueInput .interrupt).nextEvent = (none, {}) := by
        rw [nextEvent, enqueueInput, empty, hState]
        rfl
      refine ⟨emptyTransition .idle loop.nextActionId, ?_, rfl⟩
      rw [driveOnce_of_none hNext]
      simp [apply, emptyTransition, startedTurnId, enqueueInput, hState]
    | readyToContinue turnId | runningModel turnId | runningTools turnId =>
      have hNext : (loop.enqueueInput .interrupt).nextEvent = (some .interrupt, {}) := by
        rw [nextEvent, enqueueInput, empty, hState]
        rfl
      refine ⟨_, driveOnce_of_some hNext, ?_⟩
      rw [enqueueInput, hState]
      rfl
  obtain ⟨transition, hOnce, idle⟩ := ends
  have rests : (loop.enqueueInput .interrupt).driveOnce.1.Rests := by
    rw [hOnce]
    constructor
    · rw [nextEvent, apply, idle]
      rfl
    · rw [apply, idle]
      intro _ _ _ _
      simp
  have hDrive : (loop.enqueueInput .interrupt).drive = (loop.enqueueInput .interrupt).driveOnce.1 := by
    cases again : (loop.enqueueInput .interrupt).driveOnce.2 with
    | false => exact drive_of_stop again
    | true => rw [drive_of_again again, rests.drive_eq]
  rw [hDrive, hOnce]
  exact idle

end AgentCoreLoop

end PiRelay.AgentCore
