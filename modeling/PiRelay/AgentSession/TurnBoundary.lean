import PiRelay.AgentSession.Runs

/-! The live core and the transcript store say the same about the turn: the core
is idle exactly while the active leaf is a turn boundary. This holds as long as
every turn is closed through the core. A model output cut off at its token limit
is not: it closes the turn in the store and leaves the core waiting. -/
namespace PiRelay.Session

open AgentVocab AgentCore AgentCoreLoop List
open Library (Machine)

/-- Whether a path ends at a boundary once the items are appended to it. -/
def endsAtBoundary (atBoundary : Bool) (items : List TranscriptItem) : Bool :=
  match items.getLast? with
  | none => atBoundary
  | some item => item.isTurnBoundary

theorem endsAtBoundary_append (atBoundary : Bool) (first second : List TranscriptItem) :
    endsAtBoundary atBoundary (first ++ second) =
      endsAtBoundary (endsAtBoundary atBoundary first) second := by
  simp only [endsAtBoundary, getLast?_append]
  cases second.getLast? <;> rfl

theorem endsAtBoundary_of_open {items : List TranscriptItem}
    (isOpen : ∀ item ∈ items, item.isTurnBoundary = false) : endsAtBoundary false items = false := by
  rw [endsAtBoundary]
  cases hLast : items.getLast? with
  | none => rfl
  | some item => exact isOpen item (mem_of_getLast? hLast)

theorem TranscriptStore.appendItem_isTurnBoundary (store : TranscriptStore) (item : TranscriptItem)
    (providerReplay : List ProviderReplayItem) (stamp : EntryStamp) :
    (store.appendItem item providerReplay stamp).isTurnBoundary = item.isTurnBoundary := by
  simp [isTurnBoundary, isTurnBoundaryAt, appendItem, appendEntry, getEntry]

theorem TranscriptStore.appendTranscriptItems_isTurnBoundary (store : TranscriptStore)
    (items : List TranscriptItem) (stamps : Nat → EntryStamp) :
    (store.appendTranscriptItems items stamps).isTurnBoundary =
      endsAtBoundary store.isTurnBoundary items := by
  induction items generalizing store stamps with
  | nil => rfl
  | cons _ _ ih =>
    rw [appendTranscriptItems, ih, appendItem_isTurnBoundary, ← singleton_append,
      endsAtBoundary_append]
    rfl

/-- A transition ends idle exactly when its items end at a boundary. -/
theorem isIdle_of_fires {next : ActionId} {state : AgentState} {event : AgentEvent}
    {transition : Transition} (fires : AgentState.Fires next state event transition) :
    (transition.state == .idle) = endsAtBoundary (state == .idle) transition.items := by
  cases fires with
  | startTools =>
    rw [startTools_items, ← singleton_append, endsAtBoundary_append]
    symm
    apply endsAtBoundary_of_open
    intro item hItem
    obtain ⟨-, _, rfl⟩ := mem_map.mp hItem
    rfl
  | recordResult turnId tools index position _ result =>
    rw [AgentState.recordResult_eq]
    have recorded : endsAtBoundary false
        (((takenTools (tools.modify position (RunningTool.store result)) index).filterMap
          RunningTool.result).map .toolResult) = false := by
      apply endsAtBoundary_of_open
      intro item hItem
      obtain ⟨-, _, rfl⟩ := mem_map.mp hItem
      rfl
    have hBusy : (AgentState.runningTools turnId tools index == .idle) = false := rfl
    rw [hBusy, recorded]
    simp only
    split <;> rfl
  | interruptTools => rw [endsAtBoundary_append]; rfl
  | _ => rfl

variable {loop : AgentCoreLoop}

theorem drive_isIdle (drained : loop.transcriptItemOutbox = []) :
    loop.drive.isIdle = endsAtBoundary loop.isIdle loop.drive.transcriptItemOutbox := by
  have initially : loop.isIdle = endsAtBoundary loop.isIdle loop.transcriptItemOutbox := by
    rw [drained]
    rfl
  refine driveLoop.run_invariant (motive := fun current =>
    current.isIdle = endsAtBoundary loop.isIdle current.transcriptItemOutbox) ?_ initially
  intro current agrees
  obtain ⟨transition, hOnce, hTransition⟩ := current.driveOnce_cases
  have hBody : (driveLoop.body current).1 = current.apply current.nextEvent.2 transition := hOnce
  rw [hBody]
  rw [apply, isIdle, endsAtBoundary_append]
  rw [← isIdle, ← agrees]
  rcases hTransition with rfl | ⟨event, _, fires⟩
  · rfl
  · exact isIdle_of_fires fires

def waitingInputs (mailbox : Mailbox) : List TurnInput := mailbox.steer ++ mailbox.followUp

section

variable (idle : loop.state = .idle)
include idle

theorem drive_of_idle_notification {event : AgentEvent} {rest : List AgentEvent}
    (hFirst : loop.mailbox.notifications = event :: rest) (completion : event.isCompletion) :
    loop.drive =
      ({ loop with
        mailbox := { loop.mailbox with notifications := rest, interruptRequested := false } }
        : AgentCoreLoop).drive := by
  have hNext : loop.nextEvent =
      (some event, { loop.mailbox with notifications := rest, interruptRequested := false }) := by
    simp [nextEvent, Mailbox.nextEvent, idle, AgentState.isActive, hFirst]
  have hStep : loop.state.step event loop.nextActionId =
      emptyTransition loop.state loop.nextActionId := by
    rw [idle]
    cases event with
    | modelCompleted | modelFailed | toolCompleted => rfl
    | _ => cases completion
  have hOnce : loop.driveOnce = ({ loop with
        mailbox := { loop.mailbox with notifications := rest, interruptRequested := false } },
        true) := by
    simp [driveOnce, hNext, hStep, emptyTransition]
  rw [drive_of_again (congrArg Prod.snd hOnce), hOnce]

/-- An idle drive starts a turn with the first waiting input. -/
theorem drive_of_idle_settled {first : TurnInput} {rest : List TurnInput}
    (settled : loop.mailbox.notifications = [])
    (hWaiting : waitingInputs loop.mailbox = first :: rest) :
    loop.drive.transcriptItemOutbox = loop.transcriptItemOutbox
        ++ [.turnStarted (TurnId.next loop.lastTurnId), .userMessage first.message] ∧
      waitingInputs loop.drive.mailbox = rest := by
  obtain ⟨mailbox, hNext, hRest, hSettled, hQuiet⟩ : ∃ mailbox,
      loop.nextEvent = (some (.startTurn (TurnId.next loop.lastTurnId) first), mailbox) ∧
        waitingInputs mailbox = rest ∧ mailbox.notifications = [] ∧
        mailbox.interruptRequested = false := by
    cases hSteer : loop.mailbox.steer with
    | cons steer others =>
      rw [waitingInputs, hSteer, cons_append] at hWaiting
      injection hWaiting with hInput hOthers
      refine ⟨{ loop.mailbox with steer := others, interruptRequested := false }, ?_, hOthers,
        settled, rfl⟩
      simp [nextEvent, Mailbox.nextEvent, Mailbox.popUserInputEntry, idle,
        AgentState.isActive, settled, hSteer, hInput]
    | nil =>
      rw [waitingInputs, hSteer, nil_append] at hWaiting
      refine ⟨{ loop.mailbox with followUp := rest, interruptRequested := false }, ?_, ?_,
        settled, rfl⟩
      · simp [nextEvent, Mailbox.nextEvent, Mailbox.popUserInputEntry, idle,
          AgentState.isActive, settled, hSteer, hWaiting]
      · simp [waitingInputs, hSteer]
  have hStep : loop.state.step (.startTurn (TurnId.next loop.lastTurnId) first) loop.nextActionId =
      requestModel (TurnId.next loop.lastTurnId)
        [.turnStarted (TurnId.next loop.lastTurnId), .userMessage first.message]
        loop.nextActionId := by
    rw [idle]
    rfl
  have hFirst := driveOnce_of_some hNext
  have again : loop.driveOnce.2 := by
    apply (driveOnce_again_iff hNext).mpr
    right
    rw [hStep]
    intro turnId
    simp [requestModel, ActionId.takeNext]
  rw [hStep] at hFirst
  have hDrive : loop.drive = loop.driveOnce.1 := by
    rw [drive_of_again again, hFirst]
    exact drive_of_runningModel rfl hSettled hQuiet
  rw [hDrive, hFirst]
  exact ⟨rfl, hRest⟩

theorem drive_of_idle {first : TurnInput} {rest : List TurnInput}
    (only : loop.mailbox.OnlyCompletions) (hWaiting : waitingInputs loop.mailbox = first :: rest) :
    loop.drive.transcriptItemOutbox = loop.transcriptItemOutbox
        ++ [.turnStarted (TurnId.next loop.lastTurnId), .userMessage first.message] ∧
      waitingInputs loop.drive.mailbox = rest := by
  induction hNotified : loop.mailbox.notifications generalizing loop with
  | nil => exact drive_of_idle_settled idle hNotified hWaiting
  | cons event others ih =>
    have completion : event.isCompletion := only event (hNotified ▸ mem_cons_self)
    rw [drive_of_idle_notification idle hNotified completion]
    have onlyOthers : ∀ other ∈ others, other.isCompletion := by
      intro other hOther
      exact only other (hNotified ▸ .tail _ hOther)
    have started := @ih { loop with
      mailbox := { loop.mailbox with notifications := others, interruptRequested := false } }
      idle onlyOthers hWaiting rfl
    exact started

end

theorem waitingInputs_drive (idle : loop.drive.isIdle) : waitingInputs loop.drive.mailbox = [] := by
  have hIdle := beq_iff_eq.mp idle
  have notReady : loop.drive.isReadyToContinue = false := by
    rw [isReadyToContinue, hIdle]
  obtain ⟨_, _, takes⟩ := loop.drive_exhausted notReady
  rw [hIdle] at takes
  generalize loop.drive.mailbox = after at takes
  cases takes with
  | emptyIdle _ noSteer noFollowUp => simp [waitingInputs, noSteer, noFollowUp]
  | waiting active => cases active

namespace AgentSession

/-- The call is not a cut-off model output whose request is still pending. -/
def closesThroughCore (session : AgentSession) : SessionCall → Bool
  | .enqueueSessionInput (.modelMaxOutputTokens actionId turnId _ _ _) _ =>
    !session.outstandingActions.pending.contains { actionId, turnId, tool := none }
  | _ => true

def coreClosedRuns : Machine AgentSession SessionCall :=
  (machine (· = new)).guarded fun session call =>
    call.replacesRuntime = false ∧ session.closesThroughCore call = true

structure InStep (session : AgentSession) : Prop where
  drained : session.core.transcriptItemOutbox = []
  completions : session.core.mailbox.OnlyCompletions
  agrees : session.core.isIdle = session.transcriptStore.isTurnBoundary

namespace InStep

variable {session : AgentSession}

section

variable (inStep : session.InStep)
include inStep

theorem enqueueAccepted (input : AgentInput) : (session.enqueueAccepted input).InStep := by
  have hStore := session.enqueueAccepted_transcriptStore input
  rcases session.enqueueAccepted_core input with hCore | hCore
  · exact ⟨hCore ▸ inStep.drained, hCore ▸ inStep.completions, by rw [hCore, hStore, inStep.agrees]⟩
  · refine ⟨?_, ?_, ?_⟩
    · rw [hCore]
      exact inStep.drained
    · rw [hCore]
      exact inStep.completions.pushInput input
    · rw [hCore, hStore, ← inStep.agrees]
      rfl

theorem drive (stamps : Nat → EntryStamp) :
    (session.drive stamps).InStep where
  drained := by rw [drive_core]
  completions := by
    rw [drive_core]
    exact drive_onlyCompletions inStep.completions
  agrees := by
    rw [drive_core, drive_transcriptStore, TranscriptStore.appendTranscriptItems_isTurnBoundary,
      ← inStep.agrees, ← drive_isIdle inStep.drained]
    rfl

theorem call {call : SessionCall} (keeps : call.replacesRuntime = false)
    (closes : session.closesThroughCore call) : (session.call call).InStep := by
  cases call with
  | enqueueInput => exact call_enqueueInput_of inStep (inStep.enqueueAccepted _)
  | enqueueSessionInput input =>
    cases input with
    | modelCompleted => exact inStep.enqueueAccepted _
    | modelMaxOutputTokens actionId turnId =>
      have stale : { actionId, turnId, tool := none } ∉ session.outstandingActions.pending := by
        simpa [closesThroughCore] using closes
      rw [AgentSession.call, enqueueSessionInput, acceptModelMaxOutputTokens_of_stale stale]
      exact inStep
  | drive stamps => exact inStep.drive stamps
  | resumeModelTurn | restoreCompactedRuntime => cases keeps
  | _ => exact ⟨inStep.drained, inStep.completions, inStep.agrees⟩

end

end InStep

theorem coreClosedRuns_inStep {session : AgentSession} (reaches : coreClosedRuns.Reaches session) :
    session.InStep := by
  apply reaches.invariant
  · rintro session rfl
    exact ⟨rfl, by simp [new, resumeAt, Mailbox.OnlyCompletions], rfl⟩
  · rintro session call after _ inStep ⟨⟨keeps, closes⟩, rfl⟩
    exact inStep.call keeps closes

def drivesOneInput (session : AgentSession) : SessionCall → Bool
  | .drive _ =>
    !session.transcriptStore.isTurnBoundary || (waitingInputs session.core.mailbox).length ≤ 1
  | _ => true

/-- The call leaves the waiting inputs in the mailbox: it neither drives nor drains them. -/
def leavesInputs : SessionCall → Bool
  | .drive _ | .drainPendingInputs => false
  | _ => true

/-- What goes on in a run of `coreClosedRuns` before its next drive. -/
def undrivenRuns : Machine AgentSession SessionCall :=
  coreClosedRuns.guarded fun _ call => leavesInputs call = true

theorem mem_waitingInputs_enqueueAccepted {session : AgentSession} {content : TurnInput}
    (waits : content ∈ waitingInputs session.core.mailbox) (input : AgentInput) :
    content ∈ waitingInputs (session.enqueueAccepted input).core.mailbox := by
  rcases session.enqueueAccepted_core input with hCore | hCore
  · rwa [hCore]
  · rw [hCore]
    cases input with
    | steer | followUp =>
      simp only [waitingInputs, AgentCoreLoop.enqueueInput, Mailbox.pushInput,
        mem_append] at waits ⊢
      tauto
    | _ => exact waits

/-- An input that waits at a boundary still waits there when the next drive comes. -/
theorem waits_of_undriven {session later : AgentSession} {content : TurnInput}
    (reaches : coreClosedRuns.Reaches session) (leads : undrivenRuns.Leads session later)
    (waits : content ∈ waitingInputs session.core.mailbox) :
    coreClosedRuns.Reaches later ∧ content ∈ waitingInputs later.core.mailbox ∧
      later.transcriptStore = session.transcriptStore := by
  induction leads with
  | refl => exact ⟨reaches, waits, rfl⟩
  | @next before _ call _ last ih =>
    obtain ⟨beforeReaches, stillWaits, same⟩ := ih
    obtain ⟨leaves, ⟨keeps, closes⟩, rfl⟩ := last
    refine ⟨.next beforeReaches ⟨⟨keeps, closes⟩, rfl⟩, ?_⟩
    have enqueued (input : AgentInput) :
        content ∈ waitingInputs (before.enqueueAccepted input).core.mailbox ∧
          (before.enqueueAccepted input).transcriptStore = session.transcriptStore :=
      ⟨mem_waitingInputs_enqueueAccepted stillWaits input,
        (before.enqueueAccepted_transcriptStore input).trans same⟩
    cases call with
    | enqueueInput input =>
      rcases before.call_enqueueInput input with refused | ⟨accepted, -⟩
      · rw [refused]
        exact ⟨stillWaits, same⟩
      · rw [accepted]
        exact enqueued input
    | enqueueSessionInput input =>
      cases input with
      | modelCompleted => exact enqueued _
      | modelMaxOutputTokens actionId turnId =>
        have stale : { actionId, turnId, tool := none } ∉ before.outstandingActions.pending := by
          simpa [closesThroughCore] using closes
        rw [AgentSession.call, enqueueSessionInput, acceptModelMaxOutputTokens_of_stale stale]
        exact ⟨stillWaits, same⟩
    | drive | drainPendingInputs => cases leaves
    | resumeModelTurn | restoreCompactedRuntime => cases keeps
    | drainActions | drainEvents => exact ⟨stillWaits, same⟩

theorem drive_at_boundary {session : AgentSession} (inStep : session.InStep)
    (atBoundary : session.transcriptStore.isTurnBoundary = true) {first : TurnInput}
    {rest : List TurnInput} (hWaiting : waitingInputs session.core.mailbox = first :: rest)
    (stamps : Nat → EntryStamp) :
    (session.drive stamps).transcriptStore =
        session.transcriptStore.appendTranscriptItems
          [.turnStarted (TurnId.next session.core.lastTurnId), .userMessage first.message] stamps ∧
      waitingInputs (session.drive stamps).core.mailbox = rest := by
  have idle := beq_iff_eq.mp (inStep.agrees.trans atBoundary)
  obtain ⟨hItems, hRest⟩ := drive_of_idle idle inStep.completions hWaiting
  rw [inStep.drained, nil_append] at hItems
  rw [drive_transcriptStore, hItems, drive_core]
  exact ⟨rfl, hRest⟩

/-- In every run that closes its turns through the core, the core is idle exactly
at a turn boundary. There the next drive turns the first waiting input into a
user message of the transcript, and a drive that ends at a boundary leaves no
input waiting. A steer or follow-up enqueued at a boundary is thus appended by
the next drive, when it is the one user input that waits for it. -/
theorem idle_iff_turnBoundary {session : AgentSession} (reaches : coreClosedRuns.Reaches session) :
    (session.core.isIdle = true ↔ session.transcriptStore.isTurnBoundary = true) ∧
      (session.transcriptStore.isTurnBoundary = true → ∀ first rest stamps,
        waitingInputs session.core.mailbox = first :: rest →
        (session.drive stamps).transcriptStore =
            session.transcriptStore.appendTranscriptItems
              [.turnStarted (TurnId.next session.core.lastTurnId), .userMessage first.message]
              stamps ∧
          waitingInputs (session.drive stamps).core.mailbox = rest) ∧
      (∀ stamps, (session.drive stamps).transcriptStore.isTurnBoundary = true →
        waitingInputs (session.drive stamps).core.mailbox = []) ∧
      (session.transcriptStore.isTurnBoundary = true → ∀ content input,
        input = .steer content ∨ input = .followUp content →
        ∃ enqueued, session.enqueueInput input = .ok enqueued ∧
          enqueued.transcriptStore = session.transcriptStore ∧
          content ∈ waitingInputs enqueued.core.mailbox ∧
          ∀ later stamps, undrivenRuns.Leads enqueued later →
            later.drivesOneInput (.drive stamps) = true →
            (later.drive stamps).transcriptStore =
                session.transcriptStore.appendTranscriptItems
                  [.turnStarted (TurnId.next later.core.lastTurnId), .userMessage content.message]
                  stamps ∧
              waitingInputs (later.drive stamps).core.mailbox = []) := by
  have inStep := coreClosedRuns_inStep reaches
  refine ⟨by rw [inStep.agrees], ?_, ?_, ?_⟩
  · intro atBoundary first rest stamps hWaiting
    exact drive_at_boundary inStep atBoundary hWaiting stamps
  · intro stamps atBoundary
    have idle := (inStep.drive stamps).agrees.trans atBoundary
    rw [drive_core] at idle ⊢
    exact waitingInputs_drive idle
  · intro atBoundary content input hInput
    obtain ⟨enqueued, hEnqueue, hCall, hWaits⟩ : ∃ enqueued,
        session.enqueueInput input = .ok enqueued ∧
          session.call (.enqueueInput input) = enqueued ∧
          content ∈ waitingInputs enqueued.core.mailbox := by
      rcases hInput with rfl | rfl
      all_goals
        refine ⟨_, rfl, rfl, ?_⟩
        simp [enqueueAccepted, acceptAgentInput, AgentCoreLoop.enqueueInput, Mailbox.pushInput,
          waitingInputs]
    have hStore : enqueued.transcriptStore = session.transcriptStore := by
      rw [enqueueInput_ok hEnqueue]
      exact session.enqueueAccepted_transcriptStore input
    refine ⟨enqueued, hEnqueue, hStore, hWaits, fun later stamps leads one => ?_⟩
    have enqueuedReaches : coreClosedRuns.Reaches enqueued :=
      .next reaches ⟨⟨rfl, rfl⟩, hCall.symm⟩
    obtain ⟨laterReaches, waits, same⟩ := waits_of_undriven enqueuedReaches leads hWaits
    have stillBoundary : later.transcriptStore.isTurnBoundary = true := by
      rwa [same, hStore]
    have atMostOne : (waitingInputs later.core.mailbox).length ≤ 1 := by
      simpa [drivesOneInput, stillBoundary] using one
    obtain ⟨only, hOnly⟩ := length_eq_one_iff.mp
      (Nat.le_antisymm atMostOne (length_pos_of_mem waits))
    obtain rfl : content = only := mem_singleton.mp (hOnly ▸ waits)
    have driven := drive_at_boundary (coreClosedRuns_inStep laterReaches) stillBoundary hOnly stamps
    rwa [same, hStore] at driven

/-- One prompt, driven: the turn is open and the core waits for the model. -/
def promptedCalls : List SessionCall :=
  [.enqueueInput (.followUp { message := .text "go" }),
    .drive fun draw => { id := if draw = 0 then "a" else "b", timestampMs := 0 }]

def answeredCalls : List SessionCall :=
  promptedCalls ++
    [.enqueueSessionInput (.modelCompleted 1 1 { items := [.text "done"] })
        fun _ => { id := "unused", timestampMs := 1 },
      .drive fun draw => { id := if draw = 0 then "c" else "d", timestampMs := 1 }]

/-- A steer is enqueued after the answered turn, then an interrupt that has nothing to
end; the next drive starts the turn of the steer. -/
theorem idle_iff_turnBoundary_answered :
    let session := new.calls answeredCalls
    let stamps (draw : Nat) : EntryStamp :=
      { id := if draw = 0 then "e" else "f", timestampMs := 2 }
    session.core.isIdle = true ∧ ∃ enqueued,
      session.enqueueInput (.steer { message := .text "more" }) = .ok enqueued ∧
        let driven := (enqueued.call (.enqueueInput .interrupt)).drive stamps
        driven.transcriptStore = session.transcriptStore.appendTranscriptItems
            [.turnStarted 2, .userMessage (.text "more")] stamps ∧
          waitingInputs driven.core.mailbox = [] := by
  intro session stamps
  have reaches : coreClosedRuns.Reaches session := by
    have started : coreClosedRuns.Reaches new := .start rfl
    have prompted := (started.call (.enqueueInput (.followUp { message := .text "go" }))
      ⟨rfl, rfl⟩).call
        (.drive fun draw => { id := if draw = 0 then "a" else "b", timestampMs := 0 }) ⟨rfl, rfl⟩
    exact (prompted.call (.enqueueSessionInput (.modelCompleted 1 1 { items := [.text "done"] })
      fun _ => { id := "unused", timestampMs := 1 }) ⟨rfl, rfl⟩).call
        (.drive fun draw => { id := if draw = 0 then "c" else "d", timestampMs := 1 }) ⟨rfl, rfl⟩
  obtain ⟨agrees, -, -, appended⟩ := idle_iff_turnBoundary reaches
  have atBoundary : session.transcriptStore.isTurnBoundary = true := by decide
  refine ⟨agrees.mpr atBoundary, ?_⟩
  obtain ⟨enqueued, hEnqueue, -, -, drives⟩ :=
    appended atBoundary { message := .text "more" } _ (.inl rfl)
  refine ⟨enqueued, hEnqueue, ?_⟩
  cases hEnqueue
  exact drives _ stamps (.next .refl ⟨rfl, ⟨rfl, rfl⟩, rfl⟩) (by decide)

/-- A cut-off output closes the turn in the store only. The core is not idle at
this boundary, and the next follow-up stays in its mailbox. -/
theorem cutOff_output_strands_followUp :
    let session := new.calls (promptedCalls ++
      [.enqueueSessionInput (.modelMaxOutputTokens 1 1 { items := [.text "cut"] } [] "max tokens")
          fun draw => { id := if draw = 0 then "c" else "d", timestampMs := 1 },
        .drive fun _ => { id := "e", timestampMs := 2 }])
    let followed := session.calls [.enqueueInput (.followUp { message := .text "more" }),
        .drive fun _ => { id := "f", timestampMs := 3 }]
    session.transcriptStore.isTurnBoundary = true ∧ session.core.isIdle = false ∧
      waitingInputs session.core.mailbox = [] ∧
      followed.transcriptStore = session.transcriptStore ∧
      waitingInputs followed.core.mailbox = [{ message := .text "more" }] := by
  decide

end AgentSession

end PiRelay.Session
