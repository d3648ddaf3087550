import PiRelay.AgentStore.ActionStatuses

/-! A blocked model action and the compaction it is blocked for. One compaction names it,
and whatever ends that compaction takes the model action out of its wait in the same
transaction. -/
namespace PiRelay.Store

open AgentVocab AgentCore Session RecordedAction List Option
open Library (Machine)

namespace NamedBy

variable {model compaction : RecordedAction}

section

variable (named : NamedBy model compaction)
include named

theorem compaction_noModel : compaction.isModel = false := by
  have kind := beq_iff_eq.mp named.2.1
  show (compaction.row.action.payload.kind == .model) = false
  rw [kind]
  rfl

theorem model_isModel : model.isModel := by
  obtain ⟨_, _, job, _, _, isNamed⟩ := named
  cases hScope : job.scope with
  | boundary =>
    rw [hScope] at isNamed
    cases isNamed
  | midTurn =>
    rw [hScope, isNamedBy, Bool.and_eq_true] at isNamed
    exact isNamed.2

theorem compaction_notNamed (scope : CompactionScope) : compaction.isNamedBy scope = false := by
  cases scope with
  | boundary => rfl
  | midTurn => rw [isNamedBy, named.compaction_noModel, Bool.and_false]

theorem turns_differ : model.row.turnId ≠ compaction.row.turnId := by
  have isModel := beq_iff_eq.mp named.model_isModel
  have isCompaction := beq_iff_eq.mp named.2.1
  rw [MarkedAction.turnId, MarkedAction.turnId]
  cases hModel : model.row.action.payload with
  | model =>
    cases hCompaction : compaction.row.action.payload with
    | model | tool =>
      rw [hCompaction] at isCompaction
      cases isCompaction
    | compaction => nofun
  | tool | compaction =>
    rw [hModel] at isModel
    cases isModel

theorem of_same {nextModel next : RecordedAction} (sameModel : SameAction model nextModel)
    (same : SameAction compaction next) (unfinished : next.isUnfinished) :
    NamedBy nextModel next := by
  obtain ⟨_, isCompaction, job, hasJob, isRow, isNamed⟩ := named
  exact ⟨unfinished, same.isCompaction.trans isCompaction, job, same.job.trans hasJob,
    isRow.trans same.id.symm, (sameModel.isNamedBy job.scope).trans isNamed⟩

end

end NamedBy

/-- What a transaction does to a blocked model action and its compaction: the model action
stays blocked only as long as the compaction goes on. -/
structure LinkKept (after : RecordedSession) (model compaction : RecordedAction) : Prop where
  ends : compaction.isUnfinished = false → model.status ≠ .blocked
  completes : compaction.status = .completed → model.status = .pending ∧
    ∃ leafId, after.home.activeLeafId = some leafId ∧
      model.row.modelActionContextLeafId = some leafId
  fails : compaction.status = .error → model.status = .error

namespace LinkKept

variable {after : RecordedSession} {model compaction : RecordedAction}

theorem of_unfinished (unfinished : compaction.isUnfinished) :
    LinkKept after model compaction where
  ends := fun ended => by
    rw [unfinished] at ended
    cases ended
  completes := fun completed => by
    rw [isUnfinished, completed] at unfinished
    cases unfinished
  fails := fun failed => by
    rw [isUnfinished, failed] at unfinished
    cases unfinished

theorem of_swept (swept : compaction.status = .interrupted ∨ compaction.status = .stale)
    (ended : model.status ≠ .blocked) : LinkKept after model compaction where
  ends := fun _ => ended
  completes := fun completed => by
    rcases swept with interrupted | stale
    · cases interrupted.symm.trans completed
    · cases stale.symm.trans completed
  fails := fun failed => by
    rcases swept with interrupted | stale
    · cases interrupted.symm.trans failed
    · cases stale.symm.trans failed

end LinkKept

namespace RecordedSession

variable {session after : RecordedSession} {model compaction : RecordedAction}

/-- Both rows go on, and the link between them is kept. -/
def KeepsLink (after : RecordedSession) (model compaction : RecordedAction) : Prop :=
  ∃ nextModel ∈ after.actions, ∃ nextCompaction ∈ after.actions,
    SameAction model nextModel ∧ SameAction compaction nextCompaction ∧
      LinkKept after nextModel nextCompaction

section

variable (isModelRow : model ∈ session.actions)
include isModelRow

section

variable (isRow : compaction ∈ session.actions)
include isRow

variable {change : RecordedAction → RecordedAction}

theorem keeps_of_change {added : List RecordedAction}
    (changed : after.actions = session.actions.map change ++ added)
    (same : ∀ action, SameAction action (change action))
    (kept : LinkKept after (change model) (change compaction)) :
    after.KeepsLink model compaction := by
  refine ⟨change model, ?_, change compaction, ?_, same model, same compaction, kept⟩
  · rw [changed]
    exact mem_append_left _ (mem_map_of_mem isModelRow)
  · rw [changed]
    exact mem_append_left _ (mem_map_of_mem isRow)

theorem keeps_of_write (quiet : ∀ action, QuietMove action (change action))
    (kept : LinkKept (session.write change) (change model) (change compaction)) :
    (session.write change).KeepsLink model compaction :=
  keeps_of_change isModelRow isRow (append_nil _).symm (fun action => (quiet action).same) kept

theorem keeps_of_live (unfinished : compaction.isUnfinished)
    (live : ∀ action, LiveMove action (change action)) :
    (session.write change).KeepsLink model compaction :=
  keeps_of_write isModelRow isRow (fun action => (live action).quiet)
    (.of_unfinished ((live compaction).unfinished unfinished))

theorem keeps_of_same (unfinished : compaction.isUnfinished)
    (same : after.actions = session.actions) : after.KeepsLink model compaction :=
  ⟨model, same ▸ isModelRow, compaction, same ▸ isRow, .refl model, .refl compaction,
    .of_unfinished unfinished⟩

end

end

section Rows

variable (unfinished : compaction.isUnfinished)

include unfinished

theorem markActionStale_unfinished {actionRowId attemptId : String}
    (spared : compaction.id ≠ actionRowId) (lease : Option PostCompactionDispatchLease)
    (nowMs : Nat) :
    (compaction.withRow
      ((compaction.row.markActionStale actionRowId attemptId lease nowMs).getD compaction.row)
      ).isUnfinished := by
  rw [MarkedAction.markActionStale]
  split
  · rename_i admitted
    simp only [Bool.and_eq_true] at admitted
    exact absurd (isAttempt_id admitted.1.1) spared
  · exact unfinished

section

variable (noModel : compaction.isModel = false)
include noModel

theorem failCorrupt_unfinished (intent : PostCompactionDispatchIntent)
    (fence : PostCompactionDispatchFence) (error : String) :
    (compaction.failCorrupt intent fence error).isUnfinished := by
  rw [failCorrupt, isCorruptDispatch, noModel]
  simpa using unfinished

theorem failModel_unfinished (actionRowId attemptId : String)
    (lease : Option PostCompactionDispatchLease) (error : String) (nowMs : Nat) :
    (compaction.failModel actionRowId attemptId lease error nowMs).isUnfinished := by
  have isFalse : compaction.row.isModel = false := noModel
  rw [failModel, MarkedAction.failUnfinishedModelAction, isFalse]
  simpa using unfinished

theorem block_unfinished (request : BlockRequest) (job : StoredCompactionJob)
    (autoLimitTokens : Option Nat) (nowMs : Nat) :
    (compaction.block request job autoLimitTokens nowMs).isUnfinished := by
  have isFalse : compaction.row.isModel = false := noModel
  rw [block, MarkedAction.canBlock, isFalse]
  simpa using unfinished

end

theorem cancel_swept (reason : String) : (compaction.cancel reason).status = .interrupted := by
  rw [cancel, if_pos unfinished]
  rfl

theorem markUnfinishedStale_swept (noModel : compaction.isModel = false) :
    compaction.markUnfinishedStale.status = .stale := by
  have isFalse : compaction.row.isModel = false := noModel
  have isOpen : compaction.row.status.isUnfinished := unfinished
  rw [markUnfinishedStale, MarkedAction.markUnfinishedActionsStale, isFalse, isOpen,
    Bool.and_false, Bool.false_and]
  rfl

end Rows

theorem cancel_notBlocked (model : RecordedAction) (reason : String) :
    (model.cancel reason).status ≠ .blocked := by
  intro blocked
  by_cases unfinished : model.isUnfinished
  · cases (cancel_swept unfinished reason).symm.trans blocked
  · rw [cancel, if_neg unfinished] at blocked
    rw [isUnfinished, blocked] at unfinished
    exact unfinished rfl

theorem markUnfinishedStale_notBlocked (blocked : model.status = .blocked) :
    model.markUnfinishedStale.status ≠ .blocked := by
  have isBlocked : model.row.status = .blocked := blocked
  rw [markUnfinishedStale, MarkedAction.markUnfinishedActionsStale, isBlocked]
  intro same
  cases same

theorem mem_unfinishedActions (blocked : model.status = .blocked)
    (unfinished : compaction.isUnfinished) (child : ChildSession)
    (modelRow : model.row ∈ child.actions) (compactionRow : compaction.row ∈ child.actions) :
    model.row ∈ child.unfinishedActions ∧ compaction.row ∈ child.unfinishedActions := by
  refine ⟨mem_filter.mpr ⟨modelRow, ?_⟩, mem_filter.mpr ⟨compactionRow, unfinished⟩⟩
  show model.status.isUnfinished
  rw [blocked]
  rfl

/-- A control captures actions of one turn, so it never captures both. -/
theorem not_all_captured (named : NamedBy model compaction) {rows : List MarkedAction}
    (members : model.row ∈ rows ∧ compaction.row ∈ rows) (control : MailboxRow) :
    rows.all control.captured = false := by
  rw [← Bool.not_eq_true, List.all_eq_true]
  intro all
  have modelCaptured := all model.row members.1
  have compactionCaptured := all compaction.row members.2
  rw [MailboxRow.captured, Bool.and_eq_true, beq_iff_eq] at modelCaptured compactionCaptured
  exact named.turns_differ (modelCaptured.1.trans compactionCaptured.1.symm)

variable {nowMs : Nat} {job : StoredCompactionJob}

theorem mem_completeOutputs {child completed : ChildSession} {outputs : ChildOutputBatch}
    (completes : child.completeOutputs outputs nowMs = some completed) {row : MarkedAction}
    (mem : row ∈ child.actions)
    (kept : ∀ update ∈ outputs.actionUpdate, row.canComplete update nowMs = false) :
    row ∈ completed.actions := by
  rw [ChildSession.completeOutputs] at completes
  split at completes
  · cases completes
  · obtain ⟨consumed, isConsumed, completes⟩ := bind_eq_some_iff.mp completes
    have sameActions : consumed.actions = child.actions := by
      split at isConsumed
      · cases isConsumed
        rfl
      · obtain ⟨-, _, rfl⟩ := map_eq_some_iff.mp isConsumed
        rfl
    have isMember : row ∈ consumed.actions := sameActions ▸ mem
    cases hUpdate : outputs.actionUpdate with
    | none =>
      rw [hUpdate] at completes
      cases completes
      exact isMember
    | some update =>
      have refused := kept update hUpdate
      rw [hUpdate, ChildSession.completeAction] at completes
      split at completes
      · cases completes
        refine mem_map.mpr ⟨row, isMember, ?_⟩
        rw [MarkedAction.resolveUpdate, refused]
        show (row.completeActionTx update nowMs).getD row = row
        rw [MarkedAction.completeActionTx, refused]
        rfl
      · cases completes

theorem applyControlInterrupt_none (blocked : model.status = .blocked)
    (named : NamedBy model compaction) {child : ChildSession} (modelRow : model.row ∈ child.actions)
    (compactionRow : compaction.row ∈ child.actions) (inputId : String)
    (priorLeafId : Option EntryId) : child.applyControlInterrupt inputId priorLeafId = none := by
  have members := mem_unfinishedActions blocked named.1 child modelRow compactionRow
  cases applied : child.applyControlInterrupt inputId priorLeafId with
  | none => rfl
  | some =>
    exfalso
    rw [ChildSession.applyControlInterrupt] at applied
    split at applied
    · rename_i updated
      rw [updateRows] at updated
      split at updated
      · rename_i reached
        obtain ⟨row, _, admitted⟩ := List.any_eq_true.mp reached
        rw [Bool.and_eq_true, not_all_captured named members row] at admitted
        cases admitted.2
      · cases updated
    · cases applied

theorem not_canComplete (blocked : model.status = .blocked) (update : LeasedActionUpdate)
    (nowMs : Nat) : model.row.canComplete update nowMs = false := by
  have isBlocked : model.row.status = .blocked := blocked
  rw [MarkedAction.canComplete, isBlocked]
  simp

theorem spared_canComplete {update : LeasedActionUpdate} (spared : compaction.id ≠ update.rowId)
    (nowMs : Nat) : compaction.row.canComplete update nowMs = false := by
  have differs : (compaction.row.id == update.rowId) = false := beq_eq_false_iff_ne.mpr spared
  rw [MarkedAction.canComplete, MarkedAction.isAttempt, differs]
  simp

theorem recordActions_keep (actions : List (Option MarkedAction)) {rows : List RecordedAction}
    (isModelRow : model ∈ rows) (isRow : compaction ∈ rows) (kept : compaction.isUnfinished ∨
      compaction.status = .interrupted ∧ model.status ≠ .blocked) :
    ∃ nextModel ∈ actions.foldl recordAction rows, ∃ next ∈ actions.foldl recordAction rows,
      SameAction model nextModel ∧ SameAction compaction next ∧
        (next.isUnfinished ∨ next.status = .interrupted ∧ nextModel.status ≠ .blocked) := by
  induction actions generalizing rows model compaction with
  | nil => exact ⟨model, isModelRow, compaction, isRow, .refl model, .refl compaction, kept⟩
  | cons first _ ih =>
    cases first with
    | some => exact ih (mem_append_left _ isModelRow) (mem_append_left _ isRow) kept
    | none =>
      have swept : (compaction.cancel "session interrupted").status = .interrupted := by
        rcases kept with unfinished | ⟨interrupted, _⟩
        · exact cancel_swept unfinished _
        · have ended : ¬ compaction.isUnfinished := by
            simp [isUnfinished, interrupted, ActionStatus.isUnfinished]
          rw [cancel, if_neg ended]
          exact interrupted
      obtain ⟨nextModel, modelMember, next, mem, sameModel, same, kept⟩ :=
        ih (mem_map_of_mem (f := (·.cancel "session interrupted")) isModelRow)
          (mem_map_of_mem isRow) (.inr ⟨swept, cancel_notBlocked model _⟩)
      exact ⟨nextModel, modelMember, next, mem, (model.cancel_quiet _).same.trans sameModel,
        (compaction.cancel_quiet _).same.trans same, kept⟩

/-- A batch that updates other actions keeps the link. -/
theorem persistOutputs_keeps (isModelRow : model ∈ session.actions)
    (isRow : compaction ∈ session.actions) (blocked : model.status = .blocked)
    (named : NamedBy model compaction) {outputs : ChildOutputBatch} {result : ActionResult}
    (spared : ∀ update ∈ outputs.actionUpdate, compaction.id ≠ update.rowId)
    (persisted : session.persistOutputs outputs result nowMs = some after) :
    after.KeepsLink model compaction := by
  obtain ⟨_, isPersisted, rfl⟩ := map_eq_some_iff.mp persisted
  obtain ⟨completed, completes, applies⟩ := bind_eq_some_iff.mp isPersisted
  have modelRow : model.row ∈ completed.actions :=
    mem_completeOutputs completes (mem_map_of_mem isModelRow)
      fun update _ => not_canComplete blocked update nowMs
  have compactionRow : compaction.row ∈ completed.actions :=
    mem_completeOutputs completes (mem_map_of_mem isRow)
      fun update isUpdate => spared_canComplete (spared update isUpdate) nowMs
  have noControl : outputs.controlInterruptInputId = none := by
    cases hControl : outputs.controlInterruptInputId with
    | none => rfl
    | some inputId =>
      rw [hControl] at applies
      obtain ⟨_, isApplied, _⟩ := map_eq_some_iff.mp applies
      have refused := applyControlInterrupt_none blocked named modelRow compactionRow inputId
        session.child.activeLeafId
      cases refused.symm.trans isApplied
  have stays : ∀ action : RecordedAction,
      (∀ update ∈ outputs.actionUpdate, action.row.canComplete update nowMs = false) →
        session.outputChange outputs result nowMs action = action := by
    intro action refused
    rw [outputChange, noControl]
    cases hUpdate : outputs.actionUpdate with
    | none => rfl
    | some update =>
      show action.complete update result outputs.sessionEvents nowMs = action
      rw [complete, if_neg]
      simp [refused update hUpdate]
  have modelStays := stays model fun update _ => not_canComplete blocked update nowMs
  have compactionStays := stays compaction
    fun update isUpdate => spared_canComplete (spared update isUpdate) nowMs
  obtain ⟨nextModel, modelMember, next, mem, sameModel, same, kept⟩ :=
    recordActions_keep outputs.actions (mem_map.mpr ⟨model, isModelRow, modelStays⟩)
      (mem_map.mpr ⟨compaction, isRow, compactionStays⟩) (.inl named.1)
  refine ⟨nextModel, modelMember, next, mem, sameModel, same, ?_⟩
  rcases kept with unfinished | ⟨interrupted, notBlocked⟩
  · exact .of_unfinished unfinished
  · exact .of_swept (.inl interrupted) notBlocked

theorem applyControl_keeps (isModelRow : model ∈ session.actions)
    (isRow : compaction ∈ session.actions) (blocked : model.status = .blocked)
    (named : NamedBy model compaction) {inputId : String}
    (applied : session.applyControlAtBoundary inputId = .ok after) :
    after.KeepsLink model compaction := by
  have members := mem_unfinishedActions blocked named.1 session.child
    (mem_map_of_mem isModelRow) (mem_map_of_mem isRow)
  have notCurrent : ∀ control, session.child.targetIsCurrent control = false := by
    intro control
    rw [ChildSession.targetIsCurrent]
    split
    · have notEmpty := isEmpty_eq_false_iff.mpr (ne_nil_of_mem members.1)
      rw [notEmpty, Bool.and_false]
    · rw [not_all_captured named members control, Bool.and_false]
  have notApplied : ∀ result child,
      session.child.applySubagentControlInterruptAtBoundary inputId = .ok (result, child) →
        ∀ interrupted, result ≠ .applied interrupted := by
    intro result child applies interrupted isApplied
    rw [ChildSession.applySubagentControlInterruptAtBoundary] at applies
    split at applies
    · cases applies
      cases isApplied
    · split at applies
      · cases applies
      · rename_i control _
        rw [notCurrent control] at applies
        simp only [Bool.not_false, if_true] at applies
        split at applies
        · cases applies
        · cases applies
          cases isApplied
  rw [applyControlAtBoundary] at applied
  cases applies : session.child.applySubagentControlInterruptAtBoundary inputId with
  | error =>
    rw [applies] at applied
    cases applied
  | ok outcome =>
    obtain ⟨result, child⟩ := outcome
    rw [applies] at applied
    cases applied
    cases result with
    | applied interrupted => exact absurd rfl (notApplied _ child applies interrupted)
    | notAtBoundary | generationAdvanced => exact keeps_of_same isModelRow isRow named.1 rfl

theorem job_spares (named : NamedBy model compaction)
    (other : ¬ compaction.row.isAttempt job.actionRowId job.attemptId) (leafId : EntryId)
    (result : ActionResult) (status : ActionStatus) (error : String) :
    (compaction.release job.scope leafId).completeCompaction job result = compaction ∧
      (compaction.failBlocked job.scope error).finishCompaction job status error = compaction ∧
        compaction.finishCompaction job status error = compaction := by
  have notReleased : compaction.release job.scope leafId = compaction := by
    rw [release, named.compaction_notNamed job.scope, Bool.false_and]
    rfl
  have notFailed : compaction.failBlocked job.scope error = compaction := by
    rw [failBlocked, named.compaction_notNamed job.scope, Bool.false_and]
    rfl
  have notFinished : compaction.finishCompaction job status error = compaction := by
    rw [finishCompaction, if_neg]
    rw [Bool.and_eq_true]
    exact fun admitted => other admitted.1
  refine ⟨?_, ?_, notFinished⟩
  · rw [notReleased, completeCompaction, if_neg other]
  · rw [notFailed, notFinished]

theorem completeCompaction_same (job : StoredCompactionJob) (leafId : EntryId)
    (result : ActionResult) (action : RecordedAction) :
    SameAction action ((action.release job.scope leafId).completeCompaction job result) := by
  have released : SameAction action (action.release job.scope leafId) := by
    rw [release]
    split
    · rename_i admitted
      rw [Bool.and_eq_true] at admitted
      refine ⟨rfl, rfl, ?_, rfl⟩
      cases hScope : job.scope with
      | boundary =>
        rw [hScope] at admitted
        cases admitted.1
      | midTurn =>
        rw [hScope, isNamedBy, Bool.and_eq_true] at admitted
        exact (beq_iff_eq.mp admitted.1.2).symm
    · exact .refl action
  refine released.trans ?_
  rw [completeCompaction]
  split
  · exact ⟨rfl, rfl, rfl, rfl⟩
  · exact .refl _

theorem model_notAttempt (keyed : session.Keyed) (isModelRow : model ∈ session.actions)
    (isRow : compaction ∈ session.actions) (named : NamedBy model compaction)
    (isAttempt : compaction.row.isAttempt job.actionRowId job.attemptId) :
    ¬ model.row.isAttempt job.actionRowId job.attemptId := by
  intro alsoAttempt
  obtain rfl := keyed.eq_of_id isModelRow isRow
    ((isAttempt_id alsoAttempt).trans (isAttempt_id isAttempt).symm)
  cases named.compaction_noModel.symm.trans named.model_isModel

theorem named_by_job (named : NamedBy model compaction)
    (promised : compaction.id = job.actionRowId → compaction.job = some job)
    (isAttempt : compaction.row.isAttempt job.actionRowId job.attemptId) :
    model.isNamedBy job.scope := by
  obtain ⟨_, _, _, hasJob, _, isNamed⟩ := named
  cases (promised (isAttempt_id isAttempt)).symm.trans hasJob
  exact isNamed

section

variable (isModelRow : model ∈ session.actions) (isRow : compaction ∈ session.actions)
  (blocked : model.status = .blocked) (named : NamedBy model compaction)
  (promised : compaction.id = job.actionRowId → compaction.job = some job)
include isModelRow isRow blocked named promised

/-- The transaction of a finished compaction keeps the link. -/
theorem complete_keeps (keyed : session.Keyed) (completion : CompactionCompletion)
    (ids : Nat → EntryId) (rootTimestampMs : Nat) :
    (session.completeCompactionAction job completion ids rootTimestampMs).KeepsLink model
      compaction := by
  by_cases isAttempt : compaction.row.isAttempt job.actionRowId job.attemptId
  · have isNamed := named_by_job named promised isAttempt
    have isOpen : session.actions.any (·.isUnfinishedCompaction job) := by
      refine List.any_eq_true.mpr ⟨compaction, isRow, ?_⟩
      rw [isUnfinishedCompaction, isAttempt, named.2.1, named.1]
      rfl
    have installs : session.canInstall job := by
      rw [canInstall]
      split
      · rename_i sourceLeafId hScope
        rw [hScope] at isNamed
        cases isNamed
      · refine List.any_eq_true.mpr ⟨model, isModelRow, ?_⟩
        rw [isNamed, blocked]
        rfl
    have waits : (model.isNamedBy job.scope && model.status == .blocked) := by
      rw [isNamed, blocked]
      rfl
    rw [completeCompactionAction, isOpen, installs]
    refine keeps_of_change isModelRow isRow (append_nil _).symm (completeCompaction_same job _ _) ?_
    let leafId := completion.installedActiveLeafId ids
    have released : model.release job.scope leafId =
        { model with row := model.row.releaseForDispatch leafId, result := none } := if_pos waits
    have stays : ∀ result, (model.release job.scope leafId).completeCompaction job result =
        model.release job.scope leafId := by
      intro result
      rw [released]
      exact if_neg (model_notAttempt keyed isModelRow isRow named isAttempt)
    have notReleased : compaction.release job.scope leafId = compaction := by
      rw [release, named.compaction_notNamed job.scope, Bool.false_and]
      rfl
    have completed : ∀ result,
        ((compaction.release job.scope leafId).completeCompaction job result).status =
          .completed := by
      intro result
      rw [notReleased, completeCompaction, if_pos isAttempt]
      rfl
    refine ⟨fun _ => ?_, fun _ => ⟨?_, leafId, rfl, ?_⟩, fun failed => ?_⟩
    · rw [stays, released]
      intro same
      cases same
    · rw [stays, released]
      rfl
    · rw [stays, released]
      rfl
    · cases (completed _).symm.trans failed
  · rw [completeCompactionAction]
    split
    · exact keeps_of_same isModelRow isRow named.1 rfl
    · split
      · refine keeps_of_write isModelRow isRow
          (fun action => action.finishCompaction_quiet job rfl _) ?_
        rw [(job_spares named isAttempt "" (.error "") .stale _).2.2]
        exact .of_unfinished named.1
      · refine keeps_of_change isModelRow isRow (append_nil _).symm
          (completeCompaction_same job _ _) ?_
        rw [(job_spares named isAttempt _ _ .stale "").1]
        exact .of_unfinished named.1

theorem fail_keeps (error : String) :
    (session.failCompactionAction job error).KeepsLink model compaction := by
  rw [failCompactionAction]
  split
  · exact keeps_of_same isModelRow isRow named.1 rfl
  · refine keeps_of_write isModelRow isRow
      (fun action => (action.failBlocked_quiet job.scope error).trans
        (finishCompaction_quiet _ job rfl error)) ?_
    by_cases isAttempt : compaction.row.isAttempt job.actionRowId job.attemptId
    · have waits : (model.isNamedBy job.scope && model.isUnfinished) := by
        rw [named_by_job named promised isAttempt, isUnfinished, blocked]
        rfl
      have failed : ((model.failBlocked job.scope error).finishCompaction job .error
          error).status = .error := by
        rw [failBlocked, if_pos waits, finishCompaction]
        split <;> rfl
      have ended : ((compaction.failBlocked job.scope error).finishCompaction job .error
          error).status = .error := by
        have notFailed : compaction.failBlocked job.scope error = compaction := by
          rw [failBlocked, named.compaction_notNamed job.scope, Bool.false_and]
          rfl
        rw [notFailed, finishCompaction, isAttempt, named.1]
        rfl
      refine ⟨fun _ => ?_, fun completed => ?_, fun _ => failed⟩
      · simp [failed]
      · cases ended.symm.trans completed
    · rw [(job_spares named isAttempt "" (.error "") .error error).2.1]
      exact .of_unfinished named.1

end

/-- A runner ends the actions that are dispatched to it, which no compaction is. -/
def SparesCompactions (session : RecordedSession) : ActionOperation → Prop
  | .persistOutputs outputs _ =>
    ∀ update ∈ outputs.actionUpdate, ∀ action ∈ session.actions,
      action.isCompaction = true → action.id ≠ update.rowId
  | .markActionStale actionRowId _ _ =>
    ∀ action ∈ session.actions, action.isCompaction = true → action.id ≠ actionRowId
  | _ => True

/-- An operation keeps the link of a blocked action to its compaction. -/
theorem perform_keeps (keyed : session.Keyed) (nowMs : Nat) {operation : ActionOperation}
    (promised : session.Promised operation) (spares : session.SparesCompactions operation)
    (isModelRow : model ∈ session.actions) (isRow : compaction ∈ session.actions)
    (blocked : model.status = .blocked) (named : NamedBy model compaction) :
    (session.perform nowMs operation).KeepsLink model compaction := by
  have unfinished := named.1
  have noModel := named.compaction_noModel
  have isSame := keeps_of_same isModelRow isRow unfinished rfl
  cases operation with
  | persistOutputs outputs result =>
    show ((session.persistOutputs outputs result nowMs).getD session).KeepsLink model compaction
    cases persisted : session.persistOutputs outputs result nowMs with
    | none => exact isSame
    | some =>
      exact persistOutputs_keeps isModelRow isRow blocked named
        (fun update isUpdate => spares update isUpdate compaction isRow named.2.1) persisted
  | recoverSession =>
    refine keeps_of_change isModelRow isRow (append_nil _).symm
      (fun action => action.markUnfinishedStale_quiet.same) ?_
    exact .of_swept (.inr (markUnfinishedStale_swept unfinished noModel))
      (markUnfinishedStale_notBlocked blocked)
  | blockModelActionForCompaction request drawn laterMs =>
    show ((session.blockModelActionForCompaction request drawn nowMs laterMs).toOption.getD
      session).KeepsLink model compaction
    cases blocks : session.blockModelActionForCompaction request drawn nowMs laterMs with
    | error => exact isSame
    | ok =>
      rw [blockModelActionForCompaction] at blocks
      split at blocks
      · cases blocks
      split at blocks
      · cases blocks
      split at blocks
      · cases blocks
      split at blocks
      · cases blocks
        refine keeps_of_change isModelRow isRow rfl (fun action => ?_)
          (.of_unfinished (block_unfinished unfinished noModel _ _ _ _))
        rw [block]
        split
        · exact ⟨rfl, rfl, rfl, rfl⟩
        · exact .refl action
      · cases blocks
  | createCompactionAction drawn sourceRead =>
    show ((session.createCompactionAction drawn sourceRead).toOption.getD session).KeepsLink model
      compaction
    cases created : session.createCompactionAction drawn sourceRead with
    | error => exact isSame
    | ok =>
      rw [createCompactionAction] at created
      split at created
      · cases created
      · cases sourceRead with
        | error => cases created
        | ok =>
          cases created
          exact ⟨model, mem_append_left _ isModelRow, compaction,
            mem_append_left _ isRow, .refl model, .refl compaction,
            .of_unfinished unfinished⟩
  | completeCompactionAction _ completion ids rootTimestampMs =>
    exact complete_keeps isModelRow isRow blocked named (promised compaction isRow) keyed
      completion ids rootTimestampMs
  | failCompactionAction _ error =>
    exact fail_keeps isModelRow isRow blocked named (promised compaction isRow) error
  | claimPendingModelAction actionRowId attemptId =>
    exact keeps_of_live isModelRow isRow unfinished (·.claimPending_live actionRowId attemptId)
  | claimPostCompactionModelAction intent leaseDurationMs =>
    exact keeps_of_live isModelRow isRow unfinished
      (·.claimPostCompaction_live intent leaseDurationMs nowMs _)
  | renewPostCompactionDispatchLease actionRowId attemptId lease leaseDurationMs =>
    exact keeps_of_live isModelRow isRow unfinished
      (·.renew_live actionRowId attemptId lease leaseDurationMs nowMs)
  | markActionRunning actionRowId attemptId =>
    exact keeps_of_live isModelRow isRow unfinished (·.markRunning_live actionRowId attemptId)
  | markActionStale actionRowId attemptId lease =>
    exact keeps_of_write isModelRow isRow
      (·.markActionStale_quiet actionRowId attemptId lease nowMs)
      (.of_unfinished (markActionStale_unfinished unfinished
        (spares compaction isRow named.2.1) lease nowMs))
  | failCorruptPostCompactionModelAction intent fence error =>
    exact keeps_of_write isModelRow isRow (·.failCorrupt_quiet intent promised error)
      (.of_unfinished (failCorrupt_unfinished unfinished noModel intent fence error))
  | failUnfinishedModelAction actionRowId attemptId lease error =>
    exact keeps_of_write isModelRow isRow
      (·.failModel_quiet actionRowId attemptId lease error nowMs)
      (.of_unfinished (failModel_unfinished unfinished noModel actionRowId attemptId lease _ _))
  | cancelUnfinishedSessionWork reason =>
    exact keeps_of_write isModelRow isRow (·.cancel_quiet reason)
      (.of_swept (.inl (cancel_swept unfinished reason)) (cancel_notBlocked model reason))
  | markUnfinishedActionsStale =>
    exact keeps_of_write isModelRow isRow (·.markUnfinishedStale_quiet)
      (.of_swept (.inr (markUnfinishedStale_swept unfinished noModel))
        (markUnfinishedStale_notBlocked blocked))
  | markAllUnfinishedActionsStale =>
    refine keeps_of_write isModelRow isRow (fun action => ?_) ?_
    · split
      · exact .refl action
      · exact action.markUnfinishedStale_quiet
    · by_cases spared : (session.hasPendingControl && session.delegationRuns)
      · rw [spared, Bool.or_true, Bool.or_true, if_pos rfl, if_pos rfl]
        exact .of_unfinished unfinished
      · rw [Bool.not_eq_true] at spared
        have notPending : (model.status == .pending) = false := by
          rw [blocked]
          rfl
        rw [spared, notPending, Bool.false_and, Bool.or_false, Bool.or_false,
          if_neg Bool.false_ne_true]
        split
        · exact .of_unfinished unfinished
        · exact .of_swept (.inr (markUnfinishedStale_swept unfinished noModel))
            (markUnfinishedStale_notBlocked blocked)
  | applySubagentControlInterruptAtBoundary inputId =>
    show ((session.applyControlAtBoundary inputId).toOption.getD session).KeepsLink model compaction
    cases applied : session.applyControlAtBoundary inputId with
    | error => exact isSame
    | ok => exact applyControl_keeps isModelRow isRow blocked named applied
  | elsewhere => exact keeps_of_same isModelRow isRow unfinished rfl

/-- Every blocked model action is named by an unfinished compaction. -/
def Waiting (session : RecordedSession) : Prop :=
  ∀ model ∈ session.actions, model.status = .blocked →
    ∃ compaction ∈ session.actions, NamedBy model compaction

theorem Linked.named_unique (linked : session.Linked) (isModelRow : model ∈ session.actions)
    (blocked : model.status = .blocked) {first second : RecordedAction}
    (firstRow : first ∈ session.actions) (firstNamed : NamedBy model first)
    (secondRow : second ∈ session.actions) (secondNamed : NamedBy model second) :
    first = second := by
  have waitsFor : ∀ compaction ∈ session.actions, NamedBy model compaction →
      model.waitsFor = some compaction.id := by
    rintro compaction isRow ⟨unfinished, _, job, hasJob, _, isNamed⟩
    rcases linked.awaits compaction isRow unfinished job hasJob with
      noModel | ⟨other, otherRow, otherNamed, awaits⟩
    · rw [noModel model] at isNamed
      cases isNamed
    · obtain rfl := linked.keyed.eq_of_id isModelRow otherRow (isNamedBy_id isNamed otherNamed)
      rcases awaits with ended | ⟨_, waits⟩
      · rw [isUnfinished, blocked] at ended
        cases ended
      · exact waits
  exact linked.keyed.eq_of_id firstRow secondRow
    (Option.some.inj ((waitsFor first firstRow firstNamed).symm.trans
      (waitsFor second secondRow secondNamed)))

/-- A blocked action always has the compaction that is to release it. -/
theorem Waiting.perform (waiting : session.Waiting) (linked : session.Linked)
    {operation : ActionOperation} (promised : session.Promised operation)
    (spares : session.SparesCompactions operation) (keyed : (session.perform nowMs operation).Keyed) :
    (session.perform nowMs operation).Waiting := by
  intro next isNext blocked
  have evolves := perform_evolves linked.keyed promised keyed
  -- A row that stays blocked is the model action of a link that is kept.
  have stays : ∀ model ∈ session.actions, model.status = .blocked → SameAction model next →
      ∃ compaction ∈ (session.perform nowMs operation).actions, NamedBy next compaction := by
    intro model isModelRow wasBlocked same
    obtain ⟨compaction, isRow, named⟩ := waiting model isModelRow wasBlocked
    obtain ⟨other, otherRow, later, laterRow, sameOther, sameLater, kept⟩ :=
      perform_keeps linked.keyed nowMs promised spares isModelRow isRow wasBlocked named
    obtain rfl := keyed.eq_of_id isNext otherRow (same.id.trans sameOther.id.symm)
    have unfinished : later.isUnfinished := by
      by_contra ended
      rw [Bool.not_eq_true] at ended
      exact kept.ends ended blocked
    exact ⟨later, laterRow, named.of_same sameOther sameLater unfinished⟩
  rcases evolves.predecessor isNext with isNew | ⟨model, isModelRow, moved⟩
  · cases isNew with
    | requested _ _ notBlocked => exact absurd blocked notBlocked
    | boundary isJob | blocking _ isJob =>
      rw [isJob] at blocked
      cases blocked
  · cases moved with
    | quiet move =>
      refine stays model isModelRow ?_ move.same
      rcases move.move with ⟨status, _⟩ | ⟨_, ended⟩ | ⟨_, running, _⟩
      · exact status.symm.trans blocked
      · rw [isUnfinished, blocked] at ended
        cases ended
      · cases running.symm.trans blocked
    | blocks _ _ _ _ _ _ created =>
      obtain ⟨_, compaction, isRow, _, named⟩ := created
      exact ⟨compaction, isRow, named⟩
    | releases _ _ _ _ released => cases released.symm.trans blocked

end RecordedSession

/-- The runs in which a runner ends its own actions only. -/
def blockedRuns : Machine RecordedSession (Nat × ActionOperation) :=
  actionRuns.guarded fun session timed => session.SparesCompactions timed.2

theorem reached_waiting {session : RecordedSession} (reaches : blockedRuns.Reaches session) :
    session.Waiting := by
  refine reaches.invariant ?_ ?_
  · intro initial isInitial model isModelRow
    have isEmpty : initial.actions = [] := isInitial
    rw [isEmpty] at isModelRow
    cases isModelRow
  · rintro prior ⟨_, _⟩ _ reached waiting ⟨spares, promised, rfl, keyed⟩
    exact waiting.perform (RecordedSession.reached_linked reached.of_guarded) promised spares keyed

/-- Exactly one unfinished compaction names a blocked model action, and the transaction
that ends it releases the model action, or ends it. -/
theorem blocked_model_can_be_released {session : RecordedSession}
    (reaches : blockedRuns.Reaches session) {model : RecordedAction}
    (isModelRow : model ∈ session.actions) (blocked : model.status = .blocked) :
    ∃ compaction ∈ session.actions, NamedBy model compaction ∧
      (∀ other ∈ session.actions, NamedBy model other → other = compaction) ∧
      ∀ nowMs operation after, blockedRuns.step session (nowMs, operation) after →
        ∃ nextModel ∈ after.actions, ∃ next ∈ after.actions,
          SameAction model nextModel ∧ SameAction compaction next ∧
            LinkKept after nextModel next := by
  have linked := RecordedSession.reached_linked reaches.of_guarded
  obtain ⟨compaction, isRow, named⟩ := reached_waiting reaches model isModelRow blocked
  refine ⟨compaction, isRow, named, ?_, ?_⟩
  · intro other otherRow otherNamed
    exact linked.named_unique isModelRow blocked otherRow otherNamed isRow named
  · rintro nowMs operation after ⟨spares, promised, rfl, _⟩
    exact RecordedSession.perform_keeps linked.keyed nowMs promised spares isModelRow isRow blocked
      named

/-- A model action that is requested and blocked in a session that can complete its
compaction. -/
theorem requested_model_can_be_released : ∃ compaction ∈ sampleBlocked.actions,
    compaction.id = "compaction" ∧
      (∀ model ∈ sampleBlocked.actions, model.id = "model" → NamedBy model compaction) ∧
      ∀ nowMs operation after, blockedRuns.step sampleBlocked (nowMs, operation) after →
        ∃ nextModel ∈ after.actions, ∃ next ∈ after.actions,
          nextModel.id = "model" ∧ next.id = "compaction" ∧ LinkKept after nextModel next := by
  have initially : blockedRuns.Reaches ⟨sampleHome, []⟩ := .start rfl
  have requests : blockedRuns.step ⟨sampleHome, []⟩ (0, .persistOutputs sampleOutputs (.reported ""))
      sampleRequested := ⟨nofun, sample_requests⟩
  have blocks : blockedRuns.step sampleRequested
      (0, .blockModelActionForCompaction sampleRequest sampleDrawn 0) sampleBlocked :=
    ⟨trivial, sample_blocks⟩
  have reaches : blockedRuns.Reaches sampleBlocked := (initially.next requests).next blocks
  have rows : ∃ model ∈ sampleBlocked.actions, model.id = "model" ∧ model.status = .blocked ∧
      ∀ other ∈ sampleBlocked.actions, (other.id = "model" → other = model) ∧
        (other.isCompaction → other.id = "compaction") := by
    decide +kernel
  obtain ⟨model, isModelRow, modelId, blocked, others⟩ := rows
  obtain ⟨compaction, isRow, named, _, keeps⟩ :=
    blocked_model_can_be_released reaches isModelRow blocked
  have compactionId := (others compaction isRow).2 named.2.1
  refine ⟨compaction, isRow, compactionId, ?_, ?_⟩
  · intro other otherRow otherId
    obtain rfl := (others other otherRow).1 otherId
    exact named
  · intro nowMs operation after step
    obtain ⟨nextModel, modelMember, next, mem, sameModel, same, kept⟩ :=
      keeps nowMs operation after step
    exact ⟨nextModel, modelMember, next, mem, sameModel.id.trans modelId,
      same.id.trans compactionId, kept⟩

end PiRelay.Store
