import Mathlib.Data.List.Nodup
import PiRelay.AgentStore.SubagentControls
import PiRelay.Library.Machine

/-! The phases of a control under every order of the operations on a child session.
A row keeps what it is aimed at from the moment it is inserted; only its phase, its
outcome and its status move. -/
namespace PiRelay.Store

open AgentVocab AgentCore Session MailboxRow ChildSession List Option
open Library (Machine earliest_mem)

/-- A phase stays, moves forward, or ends with the teardown of the delegation. Only a
control whose target is gone passes over the applied phase. -/
inductive PhaseStep (before after : MailboxRow) : Prop where
  | stays (same : after.controlPhase = before.controlPhase)
  | applies (pending : before.controlPhase = some .pendingInterrupt)
      (applied : after.controlPhase = some .interruptApplied)
  | readies (applied : before.controlPhase = some .interruptApplied)
      (ready : after.controlPhase = some .ready)
  | skips (pending : before.controlPhase = some .pendingInterrupt)
      (ready : after.controlPhase = some .ready)
      (outcome : after.origin.bind InputOrigin.controlInterruptOutcome = some .generationAdvanced)
  | cancels (cancelled : after.controlPhase = some .cancelled)

/-- What a row is, and what it is aimed at, stays. -/
structure RowStep (before after : MailboxRow) : Prop where
  id : after.id = before.id
  controlKind : after.controlKind = before.controlKind
  controlInterrupt : after.controlInterrupt = before.controlInterrupt
  targetTurnId : after.targetTurnId = before.targetTurnId
  targetActionAttemptIds : after.targetActionAttemptIds = before.targetActionAttemptIds
  phase : PhaseStep before after

/-- An edit leaves what a control is, what it is aimed at and when it was promoted. -/
def KeepsTarget (edit : InputOrigin → InputOrigin) : Prop :=
  ∀ origin, (edit origin).controlKind = origin.controlKind
    ∧ (edit origin).controlInterrupt = origin.controlInterrupt
    ∧ (edit origin).targetTurnId = origin.targetTurnId
    ∧ (edit origin).targetActionAttemptIds = origin.targetActionAttemptIds
    ∧ (edit origin).targetActionAttemptId = origin.targetActionAttemptId
    ∧ (edit origin).promotedAt = origin.promotedAt

namespace RowStep

theorem refl (row : MailboxRow) : RowStep row row :=
  ⟨rfl, rfl, rfl, rfl, rfl, .stays rfl⟩

theorem after_stay {before middle after : MailboxRow} (first : RowStep before middle)
    (same : middle.controlPhase = before.controlPhase) (second : RowStep middle after) :
    RowStep before after where
  id := second.id.trans first.id
  controlKind := second.controlKind.trans first.controlKind
  controlInterrupt := second.controlInterrupt.trans first.controlInterrupt
  targetTurnId := second.targetTurnId.trans first.targetTurnId
  targetActionAttemptIds := second.targetActionAttemptIds.trans first.targetActionAttemptIds
  phase := by
    cases second.phase with
    | stays stay => exact .stays (stay.trans same)
    | applies pending applied => exact .applies (same.symm.trans pending) applied
    | readies applied ready => exact .readies (same.symm.trans applied) ready
    | skips pending ready outcome => exact .skips (same.symm.trans pending) ready outcome
    | cancels cancelled => exact .cancels cancelled

theorem change {row : MailboxRow} (status : MailboxStatus) {edit : InputOrigin → InputOrigin}
    (keeps : KeepsTarget edit)
    (phase : PhaseStep row (row.change status edit)) : RowStep row (row.change status edit) := by
  cases hOrigin : row.origin with
  | none =>
    have same : (row.change status edit).origin = row.origin := by
      rw [MailboxRow.change, hOrigin]
      rfl
    constructor
    · rfl
    · rw [MailboxRow.controlKind, MailboxRow.controlKind, same]
    · rw [MailboxRow.controlInterrupt, MailboxRow.controlInterrupt, same]
    · rw [MailboxRow.targetTurnId, MailboxRow.targetTurnId, same]
    · rw [MailboxRow.targetActionAttemptIds, MailboxRow.targetActionAttemptIds, same]
    · exact phase
  | some origin =>
    obtain ⟨kind, interrupt, turn, attempts, attempt, -⟩ := keeps origin
    have edited : (row.change status edit).origin = some (edit origin) := by
      rw [MailboxRow.change, hOrigin]
      rfl
    constructor
    · rfl
    · simp only [MailboxRow.controlKind, edited, hOrigin, bind_some, kind]
    · simp only [MailboxRow.controlInterrupt, edited, hOrigin, bind_some, interrupt]
    · simp only [MailboxRow.targetTurnId, edited, hOrigin, bind_some, turn]
    · simp only [MailboxRow.targetActionAttemptIds, edited, hOrigin, attempts, attempt]
    · exact phase

theorem settle {row after : MailboxRow} {origin : InputOrigin} (id : after.id = row.id)
    (settled : after.origin = some origin)
    (kind : origin.controlKind = (row.origin.getD {}).controlKind)
    (interrupt : origin.controlInterrupt = (row.origin.getD {}).controlInterrupt)
    (turn : origin.targetTurnId = (row.origin.getD {}).targetTurnId)
    (attempts : origin.targetActionAttemptIds = (row.origin.getD {}).targetActionAttemptIds)
    (attempt : origin.targetActionAttemptId = (row.origin.getD {}).targetActionAttemptId)
    (phase : PhaseStep row after) : RowStep row after := by
  cases hOrigin : row.origin with
  | none =>
    constructor
    · exact id
    · simp only [MailboxRow.controlKind, settled, hOrigin, bind_some, kind]
      rfl
    · simp only [MailboxRow.controlInterrupt, settled, hOrigin, bind_some, interrupt]
      rfl
    · simp only [MailboxRow.targetTurnId, settled, hOrigin, bind_some, turn]
      rfl
    · simp only [MailboxRow.targetActionAttemptIds, settled, hOrigin, attempts, attempt]
      rfl
    · exact phase
  | some =>
    rw [hOrigin, getD_some] at kind interrupt turn attempts attempt
    constructor
    · exact id
    · simp only [MailboxRow.controlKind, settled, hOrigin, bind_some, kind]
    · simp only [MailboxRow.controlInterrupt, settled, hOrigin, bind_some, interrupt]
    · simp only [MailboxRow.targetTurnId, settled, hOrigin, bind_some, turn]
    · simp only [MailboxRow.targetActionAttemptIds, settled, hOrigin, attempts, attempt]
    · exact phase

end RowStep

variable {row : MailboxRow} {phase : SubagentControlPhase} {inputId : String}

theorem MailboxRow.origin_of_phase (inPhase : row.controlPhase = some phase) :
    ∃ origin, row.origin = some origin ∧ origin.controlPhase = some phase :=
  bind_eq_some_iff.mp inPhase

section

variable (admitted : row.isControlIn inputId phase)
include admitted

theorem MailboxRow.isControlIn_phase : row.controlPhase = some phase := by
  rw [isControlIn] at admitted
  rw [Bool.and_eq_true, beq_iff_eq] at admitted
  exact admitted.2

theorem MailboxRow.isControlIn_id : row.id = inputId := by
  rw [isControlIn] at admitted
  simp only [Bool.and_eq_true, beq_iff_eq] at admitted
  exact admitted.1.1.1.1

theorem MailboxRow.isControlIn_isScopedControl : row.isScopedControl := by
  rw [isControlIn] at admitted
  simp only [Bool.and_eq_true, beq_iff_eq] at admitted
  exact admitted.1.2

end

theorem MailboxRow.change_phase {status : MailboxStatus} {edit : InputOrigin → InputOrigin}
    {prior : SubagentControlPhase} (inPhase : row.controlPhase = some prior)
    (sets : ∀ origin, (edit origin).controlPhase = some phase) :
    (row.change status edit).controlPhase = some phase := by
  obtain ⟨origin, hOrigin, -⟩ := row.origin_of_phase inPhase
  rw [change, controlPhase, hOrigin]
  exact sets origin

/-- Every row of a mailbox takes a step. -/
def RowsStep (before after : List MailboxRow) : Prop :=
  ∃ change : MailboxRow → MailboxRow, after = before.map change ∧ ∀ row, RowStep row (change row)

namespace RowsStep

theorem refl (rows : List MailboxRow) : RowsStep rows rows :=
  ⟨id, (List.map_id rows).symm, RowStep.refl⟩

theorem updates {rows updated : List MailboxRow} {admits : MailboxRow → Bool}
    {change : MailboxRow → MailboxRow} (update : updateRows rows admits change = some updated)
    (steps : ∀ row, admits row → RowStep row (change row)) : RowsStep rows updated := by
  rw [updateRows] at update
  split at update
  · refine ⟨_, (Option.some.inj update).symm, ?_⟩
    intro row
    by_cases admitted : admits row
    · rw [if_pos admitted]
      exact steps row admitted
    · rw [if_neg admitted]
      exact .refl row
  · cases update

variable {before after : List MailboxRow}

section

variable (step : RowsStep before after)
include step

theorem successor {row : MailboxRow} (mem : row ∈ before) : ∃ next ∈ after, RowStep row next := by
  obtain ⟨change, rfl, steps⟩ := step
  exact ⟨change row, mem_map_of_mem mem, steps row⟩

theorem predecessor {next : MailboxRow} (mem : next ∈ after) :
    ∃ row ∈ before, RowStep row next := by
  obtain ⟨_, rfl, steps⟩ := step
  obtain ⟨row, inBefore, rfl⟩ := mem_map.mp mem
  exact ⟨row, inBefore, steps row⟩

theorem ids : after.map MailboxRow.id = before.map MailboxRow.id := by
  obtain ⟨_, rfl, steps⟩ := step
  rw [List.map_map]
  exact map_congr_left fun row _ => (steps row).id

end

end RowsStep

theorem eq_of_id_eq {rows : List MailboxRow} (distinct : (rows.map MailboxRow.id).Nodup)
    {other : MailboxRow} (mem : row ∈ rows) (otherMember : other ∈ rows)
    (same : row.id = other.id) : row = other :=
  inj_on_of_nodup_map distinct mem otherMember same

/-- A statement settles the control with an id: it is over, or it waits as a steer. -/
def Settles (inputId : String) (before after : List MailboxRow) : Prop :=
  ∃ phase edit, KeepsTarget edit
    ∧ (∀ row : MailboxRow, row.controlPhase = some phase →
        PhaseStep row (row.change row.settledStatus edit))
    ∧ updateRows before (·.isControlIn inputId phase)
        (fun row => row.change row.settledStatus edit) = some after

/-- A statement applies a control, which goes on waiting. -/
def Applies (before after : List MailboxRow) : Prop :=
  ∃ admits edit, KeepsTarget edit
    ∧ (∀ origin, (edit origin).controlPhase = some .interruptApplied)
    ∧ (∀ row : MailboxRow, admits row = true →
        row.status = .queued ∧ row.controlPhase = some .pendingInterrupt)
    ∧ updateRows before admits (fun row => row.change row.status edit) = some after

theorem Settles.step {before after : List MailboxRow} (settles : Settles inputId before after) :
    RowsStep before after := by
  obtain ⟨_, _, keeps, settled, update⟩ := settles
  refine .updates update ?_
  intro row admitted
  exact .change _ keeps (settled row (row.isControlIn_phase admitted))

theorem Applies.step {before after : List MailboxRow} (applies : Applies before after) :
    RowsStep before after := by
  obtain ⟨_, _, keeps, applied, waits, update⟩ := applies
  refine .updates update ?_
  intro row admitted
  have pending := (waits row admitted).2
  exact .change _ keeps (.applies pending (row.change_phase pending applied))

namespace ChildSession

variable {child after : ChildSession} {inputId : String}

theorem markSubagentControlReady_settles
    (marks : child.markSubagentControlReady inputId = .ok after) :
    Settles inputId child.mailbox after.mailbox := by
  rw [markSubagentControlReady] at marks
  split at marks
  · cases marks
  · rename_i mailbox update
    cases marks
    refine ⟨_, _, ?_, ?_, update⟩
    · exact fun _ => ⟨rfl, rfl, rfl, rfl, rfl, rfl⟩
    intro row applied
    exact .readies applied (row.change_phase applied fun _ => rfl)

section

variable (settles : child.settleStaleSubagentControl inputId = .ok after)
include settles

theorem settleStaleSubagentControl_settles :
    Settles inputId child.mailbox after.mailbox := by
  rw [settleStaleSubagentControl] at settles
  split at settles
  · cases settles
  · rename_i mailbox update
    cases settles
    refine ⟨_, _, ?_, ?_, update⟩
    · exact fun _ => ⟨rfl, rfl, rfl, rfl, rfl, rfl⟩
    intro row pending
    refine .skips pending (row.change_phase pending fun _ => rfl) ?_
    obtain ⟨_, hOrigin, -⟩ := row.origin_of_phase pending
    rw [change, hOrigin]
    rfl

theorem settleStaleSubagentControl_actions :
    after.actions = child.actions := by
  rw [settleStaleSubagentControl] at settles
  split at settles
  · cases settles
  · rw [← Except.ok.inj settles]

end

variable {result : SubagentBoundaryInterruptResult}

section

variable (applies : child.applySubagentControlInterruptAtBoundary inputId = .ok (result, after))
include applies

theorem applySubagentControlInterruptAtBoundary_cases :
    result = .notAtBoundary ∧ child.atBoundary = false ∧ after = child
      ∨ ∃ control ∈ child.mailbox,
          control.isControlIn inputId .pendingInterrupt
            ∧ control.controlInterrupt ∧ child.atBoundary
            ∧ (result = .generationAdvanced ∧ child.targetIsCurrent control = false
                ∧ child.settleStaleSubagentControl inputId = .ok after
              ∨ child.targetIsCurrent control ∧ ∃ mailbox,
                  result = .applied (child.unfinishedActions.any control.captured)
                    ∧ Applies child.mailbox mailbox
                    ∧ after = child.recordInterrupt mailbox control) := by
  rw [applySubagentControlInterruptAtBoundary] at applies
  split at applies
  · rename_i notAt
    cases applies
    exact .inl ⟨rfl, by simpa using notAt, rfl⟩
  · rename_i boundary
    split at applies
    · cases applies
    · rename_i control found
      have admitted := find?_some found
      rw [Bool.and_eq_true] at admitted
      refine .inr ⟨control, mem_of_find?_eq_some found, admitted.1, admitted.2,
        by simpa using boundary, ?_⟩
      split at applies
      · rename_i gone
        split at applies
        · cases applies
        · rename_i settled hSettled
          cases applies
          exact .inl ⟨rfl, by simpa using gone, hSettled⟩
      · rename_i current
        simp only at applies
        split at applies
        · cases applies
        · rename_i mailbox update
          cases applies
          refine .inr ⟨by simpa using current, mailbox, rfl, ?_, rfl⟩
          refine ⟨_, _, ?_, ?_, ?_, update⟩
          · exact fun _ => ⟨rfl, rfl, rfl, rfl, rfl, rfl⟩
          · exact fun _ => rfl
          · intro row updated
            simp only [Bool.and_eq_true, beq_iff_eq] at updated
            exact ⟨updated.1.2, updated.2⟩

theorem applySubagentControlInterruptAtBoundary_mailbox :
    after.mailbox = child.mailbox ∨ Settles inputId child.mailbox after.mailbox
      ∨ Applies child.mailbox after.mailbox := by
  obtain ⟨-, -, rfl⟩ | ⟨control, -, -, -, -, ⟨-, -, settled⟩ | ⟨-, mailbox, -, applied, rfl⟩⟩ :=
    applySubagentControlInterruptAtBoundary_cases applies
  · exact .inl rfl
  · exact .inr (.inl (settleStaleSubagentControl_settles settled))
  · exact .inr (.inr applied)

theorem applySubagentControlInterruptAtBoundary_step :
    RowsStep child.mailbox after.mailbox := by
  obtain same | settles | applied := applySubagentControlInterruptAtBoundary_mailbox applies
  · rw [same]
    exact .refl _
  · exact settles.step
  · exact applied.step

end

theorem applyControlInterrupt_some {priorLeafId : Option EntryId}
    (applies : child.applyControlInterrupt inputId priorLeafId = some after) :
    ∃ control ∈ child.mailbox, ∃ mailbox,
      control.id = inputId ∧ Applies child.mailbox mailbox
        ∧ after = child.recordInterrupt mailbox control
        ∧ ∃ row ∈ child.mailbox, row.isControlIn inputId .pendingInterrupt := by
  rw [applyControlInterrupt] at applies
  split at applies
  · rename_i control mailbox found update
    cases applies
    refine ⟨control, mem_of_find?_eq_some found, mailbox,
      by simpa using find?_some found, ?_, rfl, ?_⟩
    · refine ⟨_, _, ?_, ?_, ?_, update⟩
      · exact fun _ => ⟨rfl, rfl, rfl, rfl, rfl, rfl⟩
      · exact fun _ => rfl
      · intro row admitted
        simp only [Bool.and_eq_true, isControlIn, beq_iff_eq] at admitted
        obtain ⟨⟨⟨⟨control, -⟩, -⟩, -⟩, -⟩ := admitted
        exact ⟨control.1.1.1.2, control.2⟩
    · rw [updateRows] at update
      split at update
      · rename_i any
        obtain ⟨row, mem, admitted⟩ := List.any_eq_true.mp any
        simp only [Bool.and_eq_true] at admitted
        exact ⟨row, mem, admitted.1.1.1.1⟩
      · cases update
  · cases applies

theorem consumeInput_moves {input : TakenInput} (consumes : child.consumeInput input = some after) :
    ∃ change : MailboxRow → MailboxRow, after.mailbox = child.mailbox.map change
      ∧ after.actions = child.actions
      ∧ ∀ row, RowStep row (change row) ∧ (change row).controlPhase = row.controlPhase := by
  obtain ⟨_, update, rfl⟩ := map_eq_some_iff.mp consumes
  rw [updateRows] at update
  split at update
  · refine ⟨_, (Option.some.inj update).symm, rfl, ?_⟩
    intro row
    by_cases admitted : child.consumes input row
    · rw [if_pos admitted]
      have same : ({ row with
          status := .consumed
          origin := some (row.origin.getD {})
          followUpPosition := none
          version := row.version + 1 } : MailboxRow).controlPhase = row.controlPhase := by
        rw [controlPhase, controlPhase]
        cases row.origin <;> rfl
      exact ⟨.settle rfl rfl rfl rfl rfl rfl rfl (.stays same), same⟩
    · rw [if_neg admitted]
      exact ⟨.refl row, rfl⟩
  · cases update

variable {nowMs : Nat}

theorem completeAction_mailbox {update : Option LeasedActionUpdate} {events : List SessionEvent}
    (completes : child.completeAction events nowMs update = some after) :
    after.mailbox = child.mailbox := by
  cases update with
  | none => rw [← Option.some.inj completes]
  | some =>
    rw [completeAction] at completes
    split at completes
    · rw [← Option.some.inj completes]
    · cases completes

variable {batch : ChildOutputBatch}

theorem completeOutputs_rows {motive : List MailboxRow → Prop}
    (completes : child.completeOutputs batch nowMs = some after)
    (nothing : batch.consumedInput = none → motive child.mailbox)
    (consumed : ∀ (input : TakenInput) (appended taken : ChildSession),
      batch.consumedInput = some input → appended.mailbox = child.mailbox →
        appended.consumeInput input = some taken → motive taken.mailbox) : motive after.mailbox := by
  rw [completeOutputs] at completes
  split at completes
  · cases completes
  · obtain ⟨taken, takes, completed⟩ := bind_eq_some_iff.mp completes
    rw [completeAction_mailbox completed]
    cases hInput : batch.consumedInput with
    | none =>
      rw [hInput] at takes
      cases takes
      exact nothing hInput
    | some input =>
      rw [hInput] at takes
      refine consumed input _ taken hInput ?_ takes
      rfl

theorem persistOutputs_rows {motive : List MailboxRow → Prop}
    (persists : child.persistOutputs batch nowMs = some after)
    (nothing : batch.consumedInput = none → motive child.mailbox)
    (consumed : ∀ (input : TakenInput) (appended taken : ChildSession),
      batch.consumedInput = some input → appended.mailbox = child.mailbox →
        appended.consumeInput input = some taken → motive taken.mailbox)
    (applied : ∀ rows updated, motive rows → Applies rows updated → motive updated) :
    motive after.mailbox := by
  obtain ⟨_, completes, persists⟩ := bind_eq_some_iff.mp persists
  obtain ⟨_, applies, rfl⟩ := map_eq_some_iff.mp persists
  have first := completeOutputs_rows completes nothing consumed
  cases hControl : batch.controlInterruptInputId with
  | none =>
    rw [hControl] at applies
    cases applies
    exact first
  | some =>
    rw [hControl] at applies
    obtain ⟨_, -, _, -, update, rfl, -⟩ := applyControlInterrupt_some applies
    exact applied _ _ first update

theorem completeOutputs_moves (completes : child.completeOutputs batch nowMs = some after) :
    ∃ change : MailboxRow → MailboxRow, after.mailbox = child.mailbox.map change
      ∧ ∀ row, RowStep row (change row) ∧ (change row).controlPhase = row.controlPhase := by
  apply completeOutputs_rows (motive := fun rows => ∃ change : MailboxRow → MailboxRow,
    rows = child.mailbox.map change
      ∧ ∀ row, RowStep row (change row) ∧ (change row).controlPhase = row.controlPhase) completes
  · intro _
    exact ⟨fun row => row, (map_id' _).symm, fun row => ⟨.refl row, rfl⟩⟩
  · intro input appended taken _ same consumes
    obtain ⟨change, moved, -, steps⟩ := consumeInput_moves consumes
    exact ⟨change, same ▸ moved, steps⟩

theorem persistOutputs_step (persists : child.persistOutputs batch nowMs = some after) :
    RowsStep child.mailbox after.mailbox := by
  obtain ⟨_, completes, persists⟩ := bind_eq_some_iff.mp persists
  obtain ⟨applied, applies, rfl⟩ := map_eq_some_iff.mp persists
  obtain ⟨change, moved, steps⟩ := completeOutputs_moves completes
  cases hControl : batch.controlInterruptInputId with
  | none =>
    rw [hControl] at applies
    cases applies
    exact ⟨change, moved, fun row => (steps row).1⟩
  | some =>
    rw [hControl] at applies
    obtain ⟨_, -, _, -, applied, rfl, -⟩ := applyControlInterrupt_some applies
    obtain ⟨second, rfl, secondSteps⟩ := applied.step
    refine ⟨second ∘ change, ?_, ?_⟩
    · rw [recordInterrupt, moved, List.map_map]
    · intro row
      exact (steps row).1.after_stay (steps row).2 (secondSteps (change row))

theorem resetAbandonedConsumingInputs_step (child : ChildSession) :
    RowsStep child.mailbox child.resetAbandonedConsumingInputs.mailbox := by
  refine ⟨_, rfl, ?_⟩
  intro row
  split
  · refine .settle rfl rfl rfl rfl rfl rfl rfl (.stays ?_)
    rw [controlPhase, controlPhase]
    cases row.origin <;> rfl
  · exact .refl row

theorem cancelActiveDelegationChildInputs_step (child : ChildSession) :
    RowsStep child.mailbox child.cancelActiveDelegationChildInputs.mailbox := by
  refine ⟨_, rfl, ?_⟩
  intro row
  split
  · refine .settle rfl rfl rfl rfl rfl rfl rfl ?_
    by_cases control : row.isScopedControl
    · refine .cancels ?_
      simp only [controlPhase, bind_some, control, if_true]
    · rw [if_neg control]
      cases hPhase : row.controlPhase with
      | none => exact .cancels rfl
      | some => exact .stays hPhase.symm
  · exact .refl row

theorem replayControl_replayed {request : ScopedSubagentControlRequest} {row : MailboxRow}
    {result : EnqueuedControl} (replays : child.replayControl request row = .ok result) :
    result.replayed := by
  rw [replayControl] at replays
  split at replays
  · cases replays
  · split at replays
    · cases replays
    · rw [← Except.ok.inj replays]

theorem enqueueScopedSubagentControl_some {request : ScopedSubagentControlRequest}
    {context : ControlContext} {result : EnqueuedControl}
    (sends : child.enqueueScopedSubagentControl request context = .ok (some (after, result))) :
    after = child ∧ result.replayed
      ∨ after = { child with mailbox := child.mailbox ++ [child.controlRow request context] }
        ∧ result.replayed = false ∧ child.delegation.status = .running
        ∧ result.inputId = context.inputId := by
  rw [enqueueScopedSubagentControl] at sends
  iterate 4
    split at sends
    · cases sends
  split at sends
  · cases sends
  · split at sends
    · cases sends
    · split at sends
      · split at sends
        · cases sends
        · rename_i replays
          cases sends
          exact .inl ⟨rfl, replayControl_replayed replays⟩
      · split at sends
        · cases sends
        · rename_i running
          cases sends
          exact .inr ⟨rfl, rfl, by simpa using running, rfl⟩

section

variable (child : ChildSession)

theorem promoteQueuedInput_step (inputId : String) (promotedAt : Nat) :
    RowsStep child.mailbox (child.promoteQueuedInput inputId promotedAt).mailbox := by
  refine ⟨_, rfl, ?_⟩
  intro row
  split
  · refine .settle rfl rfl rfl rfl rfl rfl rfl (.stays ?_)
    rw [controlPhase, controlPhase]
    cases row.origin <;> rfl
  · exact .refl row

theorem cancelQueuedInput_step (inputId : String) :
    RowsStep child.mailbox (child.cancelQueuedInput inputId).mailbox := by
  refine ⟨_, rfl, ?_⟩
  intro row
  split
  · refine .settle rfl rfl rfl rfl rfl rfl rfl (.stays ?_)
    rw [controlPhase, controlPhase]
    cases row.origin <;> rfl
  · exact .refl row

theorem beginDelegationTeardown_step :
    RowsStep child.mailbox child.beginDelegationTeardown.mailbox := by
  rw [beginDelegationTeardown]
  split
  · exact cancelActiveDelegationChildInputs_step _
  · exact .refl _

theorem enqueueUserInput_step (priority : InputPriority)
    (content : QueuedInputContent) (clientInputId : Option String) (context : ControlContext) :
    (child.enqueueUserInput priority content clientInputId context).mailbox = child.mailbox
      ∨ ∃ row, (child.enqueueUserInput priority content clientInputId context).mailbox =
          child.mailbox ++ [row] ∧ row.id = context.inputId ∧ row.isScopedControl = false := by
  rw [enqueueUserInput.eq_def]
  split
  · exact .inl rfl
  · refine .inr ⟨_, rfl, rfl, ?_⟩
    cases priority <;> rfl

end

end ChildSession

namespace ChildSession

variable {child : ChildSession}

theorem blocksMailbox_of_waits {control : MailboxRow} (active : control.isActive)
    (interrupts : control.controlInterrupt) (waits : control.controlPhase = some .pendingInterrupt
      ∨ control.controlPhase = some .interruptApplied) : control.blocksMailbox := by
  rcases waits with pending | applied
  · simp [blocksMailbox, active, interrupts, pending]
  · simp [blocksMailbox, active, interrupts, applied]

theorem takeNextQueuedInputMatching_of_blocked
    (blocked : child.mailbox.any MailboxRow.blocksMailbox)
    (priority : Option InputPriority) : child.takeNextQueuedInputMatching priority = none := by
  have noneTakeable : child.mailbox.filter (child.isTakeable priority) = [] := by
    rw [filter_eq_nil_iff]
    intro row _
    simp [isTakeable, blocked]
  rw [takeNextQueuedInputMatching, noneTakeable]
  rfl

variable {input : TakenInput}

theorem takeNextQueuedInputMatching_some {priority : Option InputPriority}
    (taken : child.takeNextQueuedInputMatching priority = some input) :
    ∃ row ∈ child.mailbox, row.id = input.id ∧ row.status = .queued
      ∧ row.controlKind ≠ some .interrupt := by
  obtain ⟨row, first, rfl⟩ := map_eq_some_iff.mp taken
  obtain ⟨mem, takeable⟩ := mem_filter.mp (earliest_mem first)
  simp only [isTakeable, Bool.and_eq_true, beq_iff_eq, bne_iff_ne] at takeable
  exact ⟨row, mem, rfl, takeable.1.1.1.1, takeable.1.1.1.2⟩

theorem dueInput_of_blocked (blocked : child.mailbox.any MailboxRow.blocksMailbox) :
    child.dueInput = none := by
  rw [dueInput, if_pos blocked]

section

variable (distinct : (child.mailbox.map MailboxRow.id).Nodup)
  (blocked : child.mailbox.any MailboxRow.blocksMailbox) {row : MailboxRow}
  (mem : row ∈ child.mailbox) (queued : row.status = .queued)
include distinct blocked mem queued

theorem consumeInput_of_blocked (named : input.id = row.id) : child.consumeInput input = none := by
  have noneConsumed : child.mailbox.any (child.consumes input) = false := by
    rw [List.any_eq_false]
    intro other otherMember consumed
    rw [consumes, Bool.and_eq_true, beq_iff_eq] at consumed
    obtain rfl := eq_of_id_eq distinct otherMember mem (consumed.1.trans named)
    have notDue : (child.dueInput.map MailboxRow.id == some other.id) = false := by
      rw [dueInput_of_blocked blocked]
      rfl
    simp [notDue, queued] at consumed
  rw [consumeInput, updateRows, if_neg (by simp [noneConsumed])]
  rfl

theorem persistOutputs_of_blocked {batch : ChildOutputBatch}
    (consumes : batch.consumedInput = some input) (named : input.id = row.id) (nowMs : Nat) :
    child.persistOutputs batch nowMs = none := by
  have refused : child.completeOutputs batch nowMs = none := by
    rw [completeOutputs]
    split
    · rfl
    · have appended : ∀ other : ChildSession, other.mailbox = child.mailbox →
          other.consumeInput input = none := by
        intro other same
        rw [← same] at distinct blocked mem
        exact consumeInput_of_blocked distinct blocked mem queued named
      simp only [consumes]
      rw [appended]
      · rfl
      · rfl
  rw [persistOutputs, refused]
  rfl

end

end ChildSession

/-- A child with what each of its controls captured: the attempts and turns of the
unfinished actions that were found when it was sent. -/
structure ControlState where
  child : ChildSession
  captured : String → List (String × Option TurnId)

inductive ControlOperation where
  | enqueueControl (request : ScopedSubagentControlRequest) (context : ControlContext)
  | enqueueInput (priority : InputPriority) (content : QueuedInputContent)
      (clientInputId : Option String) (context : ControlContext)
  | promoteInput (inputId : String) (promotedAt : Nat)
  | cancelInput (inputId : String)
  | persist (batch : ChildOutputBatch) (nowMs : Nat)
  | applyAtBoundary (inputId : String)
  | skipStale (inputId : String)
  | markReady (inputId : String)
  | beginTeardown
  | cancelInputs
  | restart
  | work (entries : List TranscriptStorageNode) (activeLeafId : Option EntryId)
      (actions : List MarkedAction)

def ChildSession.capturedWork (child : ChildSession) : List (String × Option TurnId) :=
  (child.unfinishedActions.filter fun action => action.turnId == child.targetTurnId).map
    fun action => (action.attemptId, action.turnId)

namespace ControlState

variable (state : ControlState)

/-- The child after a transaction that may roll back. -/
def update (updated : Except String ChildSession) : ControlState :=
  { state with child := updated.toOption.getD state.child }

def enqueueControl (request : ScopedSubagentControlRequest)
    (context : ControlContext) : ControlState :=
  match state.child.enqueueScopedSubagentControl request context with
  | .error _ | .ok none => state
  | .ok (some (child, result)) =>
    if result.replayed then { state with child }
    else
      { child
        captured := fun inputId =>
          if inputId = result.inputId then state.child.capturedWork else state.captured inputId }

def drawsFresh (inputId : String) : Bool :=
  state.child.mailbox.all (·.id != inputId)

/-- One operation; the id of a new row is not in use. -/
def step : ControlOperation → Option ControlState
  | .enqueueControl request context =>
    if state.drawsFresh context.inputId then some (state.enqueueControl request context) else none
  | .enqueueInput priority content clientInputId context =>
    if state.drawsFresh context.inputId then
      some
        { state with
          child := state.child.enqueueUserInput priority content clientInputId context }
    else none
  | .promoteInput inputId promotedAt =>
    some { state with child := state.child.promoteQueuedInput inputId promotedAt }
  | .cancelInput inputId => some { state with child := state.child.cancelQueuedInput inputId }
  | .persist batch nowMs =>
    some { state with child := (state.child.persistOutputs batch nowMs).getD state.child }
  | .applyAtBoundary inputId =>
    some (state.update
      ((state.child.applySubagentControlInterruptAtBoundary inputId).map Prod.snd))
  | .skipStale inputId =>
    some (state.update (state.child.skipStaleSubagentControlInterrupt inputId))
  | .markReady inputId => some (state.update (state.child.markSubagentControlReady inputId))
  | .beginTeardown => some { state with child := state.child.beginDelegationTeardown }
  | .cancelInputs => some { state with child := state.child.cancelActiveDelegationChildInputs }
  | .restart => some { state with child := state.child.resetAbandonedConsumingInputs }
  | .work entries activeLeafId actions =>
    some { state with child := { state.child with entries, activeLeafId, actions } }

/-- A child whose mailbox has no controls yet. -/
def Initial : Prop :=
  (state.child.mailbox.map MailboxRow.id).Nodup
    ∧ ∀ row ∈ state.child.mailbox, row.isScopedControl = false

/-- Runs of a child session under every order of its operations. -/
def controls : Machine ControlState ControlOperation := Machine.ofSteps Initial step

/-- A row is a sound control: a control that waits is one that interrupts, and it is
aimed only at what was captured. -/
structure SoundControl (captured : List (String × Option TurnId)) (row : MailboxRow) : Prop where
  interrupts : row.controlPhase = some .pendingInterrupt
    ∨ row.controlPhase = some .interruptApplied → row.controlInterrupt = true
  aimed : ∀ attemptId ∈ row.targetActionAttemptIds, (attemptId, row.targetTurnId) ∈ captured

theorem SoundControl.rowStep {captured : List (String × Option TurnId)} {row next : MailboxRow}
    (sound : SoundControl captured row) (step : RowStep row next) : SoundControl captured next where
  interrupts := by
    intro waits
    rw [step.controlInterrupt]
    apply sound.interrupts
    cases step.phase with
    | stays same =>
      rw [← same]
      exact waits
    | applies pending | skips pending => exact .inl pending
    | readies applied => exact .inr applied
    | cancels cancelled =>
      rw [cancelled] at waits
      simp at waits
  aimed := by
    rw [step.targetActionAttemptIds, step.targetTurnId]
    exact sound.aimed

structure SoundControls (state : ControlState) : Prop where
  distinct : (state.child.mailbox.map MailboxRow.id).Nodup
  sound : ∀ row ∈ state.child.mailbox, row.isScopedControl = true →
    SoundControl (state.captured row.id) row

theorem controlRow_sound (child : ChildSession) (request : ScopedSubagentControlRequest)
    (context : ControlContext) :
    SoundControl child.capturedWork (child.controlRow request context) where
  interrupts := by
    intro waits
    cases hInterrupt : request.interrupt with
    | true => simp [controlInterrupt, controlRow, hInterrupt]
    | false => simp [controlPhase, controlRow, hInterrupt] at waits
  aimed := by
    intro attemptId mem
    have captured : attemptId ∈ child.targetActionAttemptIds := mem
    obtain ⟨action, found, rfl⟩ := mem_map.mp captured
    have turn : action.turnId = child.targetTurnId := by
      simpa using (mem_filter.mp found).2
    have target : (child.controlRow request context).targetTurnId = child.targetTurnId := rfl
    rw [target, ← turn]
    exact mem_map.mpr ⟨action, found, rfl⟩

/-- What an operation does: the rows take steps, or a sound row comes to them. -/
inductive Steps (before after : ControlState) : Prop where
  | moves (moved : RowsStep before.child.mailbox after.child.mailbox)
      (same : after.captured = before.captured)
  | adds (row : MailboxRow) (added : after.child.mailbox = before.child.mailbox ++ [row])
      (fresh : ∀ other ∈ before.child.mailbox, other.id ≠ row.id)
      (others : ∀ other ∈ before.child.mailbox,
        after.captured other.id = before.captured other.id)
      (sound : row.isScopedControl = true → SoundControl (after.captured row.id) row)

variable {state : ControlState}

theorem drawsFresh_iff {inputId : String} :
    state.drawsFresh inputId ↔ ∀ row ∈ state.child.mailbox, row.id ≠ inputId := by
  simp [drawsFresh]

theorem enqueueControl_steps {context : ControlContext}
    (fresh : state.drawsFresh context.inputId) (request : ScopedSubagentControlRequest) :
    Steps state (state.enqueueControl request context) := by
  rw [enqueueControl]
  split
  · exact .moves (.refl _) rfl
  · exact .moves (.refl _) rfl
  · rename_i child result sends
    obtain ⟨rfl, replayed⟩ | ⟨rfl, inserted, -, named⟩ := enqueueScopedSubagentControl_some sends
    · rw [if_pos replayed]
      exact .moves (.refl _) rfl
    · have distinct := drawsFresh_iff.mp fresh
      rw [if_neg (by simp [inserted])]
      refine .adds (state.child.controlRow request context) rfl distinct ?_ ?_
      · intro other mem
        simp only [named]
        rw [if_neg (distinct other mem)]
      · intro _
        simp only [named]
        have drawn : (state.child.controlRow request context).id = context.inputId := rfl
        rw [if_pos drawn]
        exact controlRow_sound state.child request context

theorem update_steps {updated : Except String ChildSession}
    (step : ∀ after, updated = .ok after → RowsStep state.child.mailbox after.mailbox) :
    Steps state (state.update updated) := by
  refine .moves ?_ rfl
  cases updated with
  | error => exact .refl _
  | ok after => exact step after rfl

/-- An operation moves every control along its phases. -/
theorem step_steps {after : ControlState} {operation : ControlOperation}
    (stepped : state.step operation = some after) : Steps state after := by
  cases operation with
  | enqueueControl request =>
    rw [step] at stepped
    split at stepped
    · rename_i fresh
      cases stepped
      exact enqueueControl_steps fresh request
    · cases stepped
  | enqueueInput priority content clientInputId context =>
    rw [step] at stepped
    split at stepped
    · rename_i fresh
      cases stepped
      rcases state.child.enqueueUserInput_step priority content clientInputId context with
        same | ⟨row, added, named, ordinary⟩
      · refine .moves ?_ rfl
        rw [same]
        exact .refl _
      · refine .adds row added ?_ (fun _ _ => rfl) ?_
        · rw [named]
          exact drawsFresh_iff.mp fresh
        · intro control
          rw [ordinary] at control
          cases control
    · cases stepped
  | promoteInput inputId promotedAt =>
    cases stepped
    exact .moves (state.child.promoteQueuedInput_step inputId promotedAt) rfl
  | cancelInput inputId =>
    cases stepped
    exact .moves (state.child.cancelQueuedInput_step inputId) rfl
  | persist batch nowMs =>
    cases stepped
    refine .moves ?_ rfl
    cases persists : state.child.persistOutputs batch nowMs with
    | none => exact .refl _
    | some => exact persistOutputs_step persists
  | applyAtBoundary inputId =>
    cases stepped
    apply update_steps
    intro child applies
    cases hApplies : state.child.applySubagentControlInterruptAtBoundary inputId with
    | error =>
      rw [hApplies] at applies
      cases applies
    | ok =>
      rw [hApplies] at applies
      cases applies
      exact applySubagentControlInterruptAtBoundary_step hApplies
  | skipStale =>
    cases stepped
    exact update_steps fun _ settles => (settleStaleSubagentControl_settles settles).step
  | markReady =>
    cases stepped
    exact update_steps fun _ marks => (markSubagentControlReady_settles marks).step
  | beginTeardown =>
    cases stepped
    exact .moves state.child.beginDelegationTeardown_step rfl
  | cancelInputs =>
    cases stepped
    exact .moves state.child.cancelActiveDelegationChildInputs_step rfl
  | restart =>
    cases stepped
    exact .moves state.child.resetAbandonedConsumingInputs_step rfl
  | work =>
    cases stepped
    exact .moves (.refl _) rfl

namespace SoundControls

variable {state after : ControlState}

theorem steps (sound : SoundControls state) (steps : Steps state after) : SoundControls after := by
  cases steps with
  | moves moved same =>
    constructor
    · rw [moved.ids]
      exact sound.distinct
    · intro next mem control
      obtain ⟨row, inBefore, step⟩ := moved.predecessor mem
      rw [isScopedControl, step.controlKind] at control
      rw [same, step.id]
      exact (sound.sound row inBefore control).rowStep step
  | adds _ added fresh others soundRow =>
    constructor
    · rw [added, map_append, nodup_append]
      refine ⟨sound.distinct, nodup_cons.mpr ⟨not_mem_nil, nodup_nil⟩, ?_⟩
      intro id inBefore other isNew same
      obtain ⟨prior, hPrior, rfl⟩ := mem_map.mp inBefore
      exact fresh prior hPrior (same.trans (mem_singleton.mp isNew))
    · intro next mem control
      rw [added] at mem
      rcases Library.mem_concat.mp mem with inBefore | rfl
      · rw [others next inBefore]
        exact sound.sound next inBefore control
      · exact soundRow control

theorem of_reaches (reaches : controls.Reaches state) : SoundControls state := by
  apply reaches.invariant
  · rintro state ⟨distinct, ordinary⟩
    refine ⟨distinct, ?_⟩
    intro row mem control
    rw [ordinary row mem] at control
    cases control
  · intro state operation after _ sound stepped
    exact sound.steps (step_steps stepped)

theorem forward (sound : SoundControls state) {operation : ControlOperation}
    (stepped : state.step operation = some after) {row : MailboxRow}
    (mem : row ∈ state.child.mailbox) :
    ∃ next ∈ after.child.mailbox, RowStep row next
      ∧ ∀ other ∈ after.child.mailbox, other.id = row.id → other = next := by
  have steps := step_steps stepped
  have distinct := (sound.steps steps).distinct
  have successor : ∃ next ∈ after.child.mailbox, RowStep row next := by
    cases steps with
    | moves moved => exact moved.successor mem
    | adds _ hAdded =>
      rw [hAdded]
      exact ⟨row, mem_append_left _ mem, .refl row⟩
  obtain ⟨next, inAfter, rowStep⟩ := successor
  refine ⟨next, inAfter, rowStep, ?_⟩
  intro other inAfterToo same
  exact eq_of_id_eq distinct inAfterToo inAfter (same.trans rowStep.id.symm)

end SoundControls

/-- Actions end as interrupted only if their attempt and turn were captured. -/
def InterruptsOnly (captured : List (String × Option TurnId)) (before after : List MarkedAction) :
    Prop :=
  List.Forall₂ (fun action result => result = action
    ∨ result = action.interrupt ∧ action.isUnfinished = true
      ∧ (action.attemptId, action.turnId) ∈ captured) before after

/-- How the controls of a child behave. -/
structure ScopedControlPhases (state : ControlState) : Prop where
  /-- Every control stays what it is, and its phase only moves forward. -/
  forward : ∀ operation after, state.step operation = some after →
    ∀ row ∈ state.child.mailbox, row.isScopedControl = true →
      ∃ next ∈ after.child.mailbox, RowStep row next
        ∧ ∀ other ∈ after.child.mailbox, other.id = row.id → other = next
  /-- A control that is only an interrupt is no input. -/
  neverTaken : ∀ priority input, state.child.takeNextQueuedInputMatching priority = some input →
    ∀ row ∈ state.child.mailbox, row.id = input.id → row.controlKind ≠ some .interrupt
  /-- Nothing is taken or consumed while a control waits. -/
  holdsMailbox : ∀ control ∈ state.child.mailbox, control.isScopedControl = true →
    control.isActive = true →
    control.controlPhase = some .pendingInterrupt
      ∨ control.controlPhase = some .interruptApplied →
    (∀ priority, state.child.takeNextQueuedInputMatching priority = none)
      ∧ ∀ row ∈ state.child.mailbox, row.status = .queued →
          ∀ batch input, batch.consumedInput = some input → input.id = row.id →
            ∀ nowMs, state.child.persistOutputs batch nowMs = none
  /-- A control at a boundary ends only what it captured. -/
  interruptsAtBoundary : ∀ inputId result after,
    state.child.applySubagentControlInterruptAtBoundary inputId = .ok (result, after) →
    InterruptsOnly (state.captured inputId) state.child.actions after.actions
  /-- A control in an output transaction ends only what it captured. -/
  interruptsOutputs : ∀ batch nowMs completed inputId applied,
    state.child.completeOutputs batch nowMs = some completed →
    completed.applyControlInterrupt inputId state.child.activeLeafId = some applied →
    InterruptsOnly (state.captured inputId) completed.actions applied.actions

theorem InterruptsOnly.refl (captured : List (String × Option TurnId))
    (actions : List MarkedAction) : InterruptsOnly captured actions actions :=
  forall₂_same.mpr fun _ _ => .inl rfl

theorem SoundControl.interruptsOnly {captured : List (String × Option TurnId)}
    {control : MailboxRow} (sound : SoundControl captured control) (child : ChildSession)
    (mailbox : List MailboxRow) :
    InterruptsOnly captured child.actions (child.recordInterrupt mailbox control).actions := by
  rw [InterruptsOnly, recordInterrupt, forall₂_map_right_iff, forall₂_same]
  intro action _
  split
  · rename_i admitted
    rw [Bool.and_eq_true, MailboxRow.captured, Bool.and_eq_true, beq_iff_eq] at admitted
    obtain ⟨unfinished, turn, attempt⟩ := admitted
    refine .inr ⟨rfl, unfinished, ?_⟩
    rw [turn]
    exact sound.aimed _ (contains_iff_mem.mp attempt)
  · exact .inl rfl

/-- An action is changed to interrupted by a control only if the control captured it,
and a control that waits holds up everything else, however the operations of the
child, its parent and its daemon fall. -/
theorem scoped_control_phases {state : ControlState} (reaches : controls.Reaches state) :
    ScopedControlPhases state := by
  have sound := SoundControls.of_reaches reaches
  constructor
  · intro operation after stepped row mem _
    exact sound.forward stepped mem
  · intro priority input taken row mem named
    obtain ⟨found, inMailbox, foundNamed, -, kind⟩ := takeNextQueuedInputMatching_some taken
    rw [eq_of_id_eq sound.distinct mem inMailbox (named.trans foundNamed.symm)]
    exact kind
  · intro control mem isControl active waits
    have interrupts := (sound.sound control mem isControl).interrupts waits
    have blocks := blocksMailbox_of_waits active interrupts waits
    have blocked : state.child.mailbox.any MailboxRow.blocksMailbox :=
      List.any_eq_true.mpr ⟨control, mem, blocks⟩
    refine ⟨takeNextQueuedInputMatching_of_blocked blocked, ?_⟩
    intro row inMailbox queued batch input consumes named nowMs
    exact persistOutputs_of_blocked sound.distinct blocked inMailbox queued consumes named nowMs
  · intro inputId result after applies
    obtain ⟨-, -, rfl⟩ | ⟨control, mem, admitted, -, -, ⟨-, -, settled⟩ | ⟨-, mailbox, -, -, rfl⟩⟩ :=
      applySubagentControlInterruptAtBoundary_cases applies
    · exact .refl _ _
    · rw [settleStaleSubagentControl_actions settled]
      exact .refl _ _
    · have isControl := control.isControlIn_isScopedControl admitted
      have named := control.isControlIn_id admitted
      rw [← named]
      exact (sound.sound control mem isControl).interruptsOnly state.child mailbox
  · intro batch nowMs completed inputId applied completes applies
    obtain ⟨change, moved, steps⟩ := completeOutputs_moves completes
    have rowsStep : RowsStep state.child.mailbox completed.mailbox :=
      ⟨change, moved, fun row => (steps row).1⟩
    have distinct : (completed.mailbox.map MailboxRow.id).Nodup := by
      rw [rowsStep.ids]
      exact sound.distinct
    obtain ⟨control, mem, mailbox, named, -, rfl, row, rowMember, admitted⟩ :=
      applyControlInterrupt_some applies
    obtain rfl := eq_of_id_eq distinct mem rowMember
      (named.trans (row.isControlIn_id admitted).symm)
    obtain ⟨prior, inMailbox, step⟩ := rowsStep.predecessor mem
    have isControl := control.isControlIn_isScopedControl admitted
    rw [MailboxRow.isScopedControl, step.controlKind] at isControl
    have soundControl := (sound.sound prior inMailbox isControl).rowStep step
    rw [← step.id, named] at soundControl
    exact soundControl.interruptsOnly completed mailbox

/-- A running model is interrupted while a follow-up waits. -/
theorem scoped_control_phases_interrupted :
    ∃ state : ControlState,
      state.child.mailbox.map MailboxRow.controlPhase = [some .interruptApplied, none]
        ∧ state.child.actions.map MarkedAction.status = [.interrupted]
        ∧ ScopedControlPhases state := by
  let started : TranscriptStorageNode :=
    { id := "entry_1"
      parentId := none
      timestampMs := 1
      item := .turnStarted 1
      providerReplay := [] }
  let finished : TranscriptStorageNode :=
    { id := "entry_2"
      parentId := some "entry_1"
      timestampMs := 2
      item := .turnFinished 1 .interrupted
      providerReplay := [] }
  let child : ChildSession :=
    { id := "child"
      parentSessionId := some "parent"
      delegationId := some "delegation"
      subagentType := some .full
      delegation := { id := "delegation", parentSessionId := "parent", status := .running }
      entries := [started]
      activeLeafId := some "entry_1"
      actions :=
        [{ id := "action"
           attemptId := "attempt"
           action :=
             { status := .running, actionId := 1, turnId := 1, payload := .model (some "entry_1") }
           postCompactionDispatch := none }]
      mailbox := [] }
  let context (inputId : String) (createdAt : Nat) : ControlContext :=
    { reusedByOtherChild := false
      routeRead := .ok ()
      inputId
      createdAt
      promotedAt := createdAt }
  let request : ScopedSubagentControlRequest :=
    { parentSessionId := "parent"
      delegationId := "delegation"
      subagentId := "child"
      clientInputId := "stop"
      kind := .interrupt
      content := none
      interrupt := true }
  let batch : ChildOutputBatch :=
    { entries := [finished]
      activeLeafId := some "entry_2"
      sessionEvents := []
      actions := []
      actionUpdate := none
      consumedInput := none
      controlInterruptInputId := some "input_1" }
  let operations : List ControlOperation := [.enqueueControl request (context "input_1" 1),
      .enqueueInput .followUp (.userMessage (.text "go on")) none (context "input_2" 2),
      .persist batch 3]
  have ran : (operations.foldlM step { child, captured := fun _ => [] }).map
      (fun state => (state.child.mailbox.map controlPhase,
        state.child.actions.map MarkedAction.status)) =
        some ([some .interruptApplied, none], [.interrupted]) := by
    decide +kernel
  obtain ⟨state, enabled, seen⟩ := map_eq_some_iff.mp ran
  have initially : Initial { child, captured := fun _ => [] } :=
    ⟨nodup_nil, fun _ mem => absurd mem not_mem_nil⟩
  have reaches : controls.Reaches state := .run (.start initially) enabled
  exact ⟨state, congrArg Prod.fst seen, congrArg Prod.snd seen, scoped_control_phases reaches⟩

end ControlState

end PiRelay.Store
