import PiRelay.AgentStore.RecordedActions

/-! How the status of an action can go. Every statement that writes a status asks for the
statuses it may leave, so an action that has ended stays as it ended; and a blocked action
is released by the compaction that its result names, and by no other. -/
namespace PiRelay.Store

open AgentVocab AgentCore Session List
open Library (Evolves)

/-- One action before and after. -/
structure SameAction (action next : RecordedAction) : Prop where
  id : next.id = action.id
  attemptId : next.attemptId = action.attemptId
  kind : next.row.action.payload.kind = action.row.action.payload.kind
  job : next.job = action.job

/-- The move of a statement that neither blocks nor releases: the row stays as it is, or it
ends, or it starts to run. -/
structure QuietMove (action next : RecordedAction) : Prop where
  same : SameAction action next
  move : next.status = action.status ∧ next.result = action.result ∨
    action.isUnfinished = true ∧ next.isUnfinished = false ∨
    action.status = .pending ∧ next.status = .running ∧ next.result = action.result

theorem SameAction.refl (action : RecordedAction) : SameAction action action :=
  ⟨rfl, rfl, rfl, rfl⟩

variable {action next : RecordedAction} {session after : RecordedSession}
    {operation : ActionOperation}

theorem SameAction.trans {middle : RecordedAction} (first : SameAction action middle)
    (second : SameAction middle next) : SameAction action next where
  id := second.id.trans first.id
  attemptId := second.attemptId.trans first.attemptId
  kind := second.kind.trans first.kind
  job := second.job.trans first.job

section

variable (same : SameAction action next)
include same

theorem SameAction.isModel : next.isModel = action.isModel := by
  show (next.row.action.payload.kind == .model) = (action.row.action.payload.kind == .model)
  rw [same.kind]

theorem SameAction.isCompaction : next.isCompaction = action.isCompaction := by
  show (next.row.action.payload.kind == .compaction) = (action.row.action.payload.kind == .compaction)
  rw [same.kind]

theorem SameAction.isNamedBy (scope : CompactionScope) :
    next.isNamedBy scope = action.isNamedBy scope := by
  cases scope with
  | boundary => rfl
  | midTurn _ _ _ rowId attemptId =>
    show (next.id == rowId && next.attemptId == attemptId && next.isModel) =
      (action.id == rowId && action.attemptId == attemptId && action.isModel)
    rw [same.id, same.attemptId, same.isModel]

end

namespace QuietMove

variable {action middle next : RecordedAction}

theorem refl (action : RecordedAction) : QuietMove action action :=
  ⟨.refl action, .inl ⟨rfl, rfl⟩⟩

/-- What is not unfinished afterwards has ended, whatever it was. -/
theorem trans (first : QuietMove action middle) (second : QuietMove middle next) :
    QuietMove action next where
  same := first.same.trans second.same
  move := by
    rcases first.move with ⟨status, result⟩ | ⟨unfinished, ended⟩ | ⟨pending, running, result⟩
    · rcases second.move with ⟨nextStatus, nextResult⟩ | ⟨nextUnfinished, nextEnded⟩ |
        ⟨nextPending, nextRunning, nextResult⟩
      · exact .inl ⟨nextStatus.trans status, nextResult.trans result⟩
      · refine .inr (.inl ⟨?_, nextEnded⟩)
        rw [RecordedAction.isUnfinished, ← status]
        exact nextUnfinished
      · exact .inr (.inr ⟨status.symm.trans nextPending, nextRunning, nextResult.trans result⟩)
    · refine .inr (.inl ⟨unfinished, ?_⟩)
      rcases second.move with ⟨nextStatus, _⟩ | ⟨nextUnfinished, _⟩ | ⟨nextPending, _, _⟩
      · rw [RecordedAction.isUnfinished, nextStatus]
        exact ended
      · rw [ended] at nextUnfinished
        cases nextUnfinished
      · rw [RecordedAction.isUnfinished, nextPending] at ended
        cases ended
    · rcases second.move with ⟨nextStatus, nextResult⟩ | ⟨_, nextEnded⟩ | ⟨nextPending, _, _⟩
      · exact .inr (.inr ⟨pending, nextStatus.trans running, nextResult.trans result⟩)
      · refine .inr (.inl ⟨?_, nextEnded⟩)
        rw [RecordedAction.isUnfinished, pending]
        rfl
      · rw [running] at nextPending
        cases nextPending

theorem ended (move : QuietMove action next) (ended : action.isUnfinished = false) :
    next.status = action.status ∧ next.result = action.result := by
  rcases move.move with stays | ⟨unfinished, _⟩ | ⟨pending, _, _⟩
  · exact stays
  · rw [ended] at unfinished
    cases unfinished
  · rw [RecordedAction.isUnfinished, pending] at ended
    cases ended

theorem settle {status : ActionStatus} {result : ActionResult}
    (unfinished : action.isUnfinished) (final : status.isUnfinished = false) :
    QuietMove action (action.settle status result) where
  same := ⟨rfl, rfl, rfl, rfl⟩
  move := .inr (.inl ⟨unfinished, final⟩)

theorem finish {status : ActionStatus} {result : ActionResult}
    (unfinished : action.isUnfinished) (final : status.isUnfinished = false) :
    QuietMove action (action.finish status result) where
  same := ⟨rfl, rfl, rfl, rfl⟩
  move := .inr (.inl ⟨unfinished, final⟩)

end QuietMove

/-- A quiet move that ends nothing. -/
structure LiveMove (action next : RecordedAction) : Prop where
  quiet : QuietMove action next
  unfinished : action.isUnfinished = true → next.isUnfinished = true

namespace LiveMove

theorem refl (action : RecordedAction) : LiveMove action action := ⟨.refl action, id⟩

theorem remark (marker : Option DispatchMarker) :
    LiveMove action (action.withRow { action.row with postCompactionDispatch := marker }) where
  quiet := ⟨⟨rfl, rfl, rfl, rfl⟩, .inl ⟨rfl, rfl⟩⟩
  unfinished := id

theorem start {marker : Option DispatchMarker}
    (startable : action.status = .pending ∨ action.status = .running) :
    LiveMove action
      (action.withRow
        { action.row with
          action := action.row.action.setStatus .running
          postCompactionDispatch := marker }) where
  quiet.same := ⟨rfl, rfl, rfl, rfl⟩
  quiet.move := by
    rcases startable with pending | running
    · exact .inr (.inr ⟨pending, rfl, rfl⟩)
    · exact .inl ⟨running.symm, rfl⟩
  unfinished _ := rfl

end LiveMove

theorem completedStatus_final {row : ActionRow} {explicit : ActionStatus}
    (final : explicit.isUnfinished = false) (events : List SessionEvent) :
    (completedStatus row explicit events).isUnfinished = false := by
  rw [completedStatus]
  split
  · rfl
  · rename_i notError
    clear notError
    induction events generalizing explicit with
    | nil => exact final
    | cons _ _ ih =>
      rw [foldl_cons]
      apply ih
      split
      · split
        · rfl
        · exact final
      · split
        · rfl
        · exact final
      · exact final

namespace RecordedAction

variable {action : RecordedAction}

theorem complete_quiet {update : LeasedActionUpdate} (final : update.status.isUnfinished = false)
    (result : ActionResult) (events : List SessionEvent) (nowMs : Nat) :
    QuietMove action (action.complete update result events nowMs) := by
  rw [complete]
  split
  · rename_i completes
    exact .settle (MarkedAction.canComplete_fence completes).1 (completedStatus_final final events)
  · exact .refl action

theorem cancel_quiet (action : RecordedAction) (reason : String) :
    QuietMove action (action.cancel reason) := by
  rw [cancel]
  split
  · rename_i unfinished
    exact .settle unfinished rfl
  · exact .refl action

theorem stale_quiet (unfinished : action.isUnfinished) :
    QuietMove action (action.withRow (action.row.settle .stale)) where
  same := ⟨rfl, rfl, rfl, rfl⟩
  move := .inr (.inl ⟨unfinished, rfl⟩)

section

variable (action : RecordedAction)

theorem markUnfinishedStale_quiet : QuietMove action action.markUnfinishedStale := by
  rw [markUnfinishedStale, MarkedAction.markUnfinishedActionsStale]
  split
  · rename_i admitted
    rw [Bool.and_eq_true] at admitted
    exact stale_quiet admitted.1
  · exact .refl action

theorem interruptCaptured_quiet (control : MailboxRow)
    (reason : String) : QuietMove action (action.interruptCaptured control reason) := by
  rw [interruptCaptured]
  split
  · rename_i captured
    rw [Bool.and_eq_true] at captured
    exact .finish captured.1 rfl
  · exact .refl action

theorem finishCompaction_quiet (job : StoredCompactionJob)
    {status : ActionStatus} (final : status.isUnfinished = false) (error : String) :
    QuietMove action (action.finishCompaction job status error) := by
  rw [finishCompaction]
  split
  · rename_i admitted
    rw [Bool.and_eq_true] at admitted
    exact .finish admitted.2 final
  · exact .refl action

theorem failBlocked_quiet (scope : CompactionScope) (error : String) :
    QuietMove action (action.failBlocked scope error) := by
  rw [failBlocked]
  split
  · rename_i admitted
    rw [Bool.and_eq_true] at admitted
    exact .settle admitted.2 rfl
  · exact .refl action

theorem markRunning_live (actionRowId attemptId : String) :
    LiveMove action (action.markRunning actionRowId attemptId) := by
  rw [markRunning]
  split
  · rename_i admitted
    rw [Bool.and_eq_true, beq_iff_eq] at admitted
    exact .start (.inl admitted.2)
  · exact .refl action

theorem failCorrupt_quiet (intent : PostCompactionDispatchIntent)
    {fence : PostCompactionDispatchFence}
    (claimed : fence.status = .pending ∨ fence.status = .running) (error : String) :
    QuietMove action (action.failCorrupt intent fence error) := by
  rw [failCorrupt]
  split
  · rename_i corrupt
    have status : action.status = fence.status := by
      simp only [isCorruptDispatch, Bool.and_eq_true, beq_iff_eq] at corrupt
      exact corrupt.1.1.2
    refine .settle ?_ rfl
    rw [isUnfinished, status]
    rcases claimed with pending | running
    · rw [pending]
      rfl
    · rw [running]
      rfl
  · exact .refl action

theorem failModel_quiet (actionRowId attemptId : String)
    (lease : Option PostCompactionDispatchLease) (error : String) (nowMs : Nat) :
    QuietMove action (action.failModel actionRowId attemptId lease error nowMs) := by
  rw [failModel, MarkedAction.failUnfinishedModelAction]
  split
  · exact .refl action
  · rename_i failed
    split at failed
    · rename_i admitted
      simp only [Bool.and_eq_true] at admitted
      exact .settle admitted.1.2 rfl
    · cases failed

theorem claimPending_live (actionRowId attemptId : String) :
    LiveMove action
      (action.withRow ((action.row.claimPendingModelAction actionRowId attemptId).getD action.row)) := by
  rw [MarkedAction.claimPendingModelAction]
  split
  · rename_i admitted
    simp only [Bool.and_eq_true, beq_iff_eq] at admitted
    exact .start (.inl admitted.1.2)
  · exact .refl action

end

theorem claimLease_startable {row claimed : MarkedAction} {intent : PostCompactionDispatchIntent}
    {leaseDurationMs nowMs : Nat} {context : ClaimContext} {lease : PostCompactionDispatchLease}
    (claims : row.claimLease intent leaseDurationMs nowMs context = .ok (some (claimed, lease))) :
    row.status = .pending ∨ row.status = .running := by
  rw [MarkedAction.claimLease] at claims
  split at claims
  · cases claims
  · cases claims
  · rename_i admitted _
    rw [Bool.and_eq_true, MarkedAction.isDispatchOf, Bool.and_eq_true, Bool.and_eq_true,
      Bool.or_eq_true, beq_iff_eq, beq_iff_eq] at admitted
    exact admitted.2.1.2

section

variable (action : RecordedAction)

theorem claimPostCompaction_live (intent : PostCompactionDispatchIntent)
    (leaseDurationMs nowMs : Nat) (context : ClaimContext) :
    LiveMove action
      (action.withRow
        (action.row.claimPostCompactionModelAction intent leaseDurationMs nowMs context).1) := by
  have claimed : ∀ row lease, action.row.claimLease intent leaseDurationMs nowMs context =
      .ok (some (row, lease)) → LiveMove action (action.withRow row) := by
    intro row lease claims
    obtain ⟨_, _, _, _, _, _, _, rfl⟩ := MarkedAction.claimLease_some claims
    exact .start (claimLease_startable claims)
  rw [MarkedAction.claimPostCompactionModelAction]
  split
  · exact .refl action
  · exact .refl action
  · rename_i row lease claims
    split <;> exact claimed row lease claims

theorem renew_live (actionRowId attemptId : String)
    (lease : PostCompactionDispatchLease) (leaseDurationMs nowMs : Nat) :
    LiveMove action
      (action.withRow
        (((action.row.renewPostCompactionDispatchLease actionRowId attemptId lease leaseDurationMs
          nowMs).toOption.bind (·)).getD action.row)) := by
  cases renews : action.row.renewPostCompactionDispatchLease actionRowId attemptId lease
      leaseDurationMs nowMs with
  | error message => exact .refl action
  | ok renewed =>
    cases renewed with
    | none => exact .refl action
    | some =>
      obtain ⟨_, _, _, rfl⟩ := MarkedAction.renew_some renews
      exact .remark _

theorem markActionStale_quiet (actionRowId attemptId : String)
    (lease : Option PostCompactionDispatchLease) (nowMs : Nat) :
    QuietMove action
      (action.withRow
        ((action.row.markActionStale actionRowId attemptId lease nowMs).getD action.row)) := by
  rw [MarkedAction.markActionStale]
  split
  · rename_i admitted
    simp only [Bool.and_eq_true] at admitted
    exact stale_quiet admitted.1.2
  · exact .refl action

end

end RecordedAction

open RecordedAction

def RecordedAction.waitsFor (action : RecordedAction) : Option String :=
  action.result.bind ActionResult.compaction

/-- The model action is the one that the job of an unfinished compaction names. -/
def NamedBy (model compaction : RecordedAction) : Prop :=
  compaction.isUnfinished = true ∧ compaction.isCompaction = true ∧
    ∃ job, compaction.job = some job ∧ job.actionRowId = compaction.id ∧
      model.isNamedBy job.scope = true

/-- An unfinished compaction of this model action that was not there before. -/
def CreatedCompaction (session after : RecordedSession) (model : RecordedAction)
    (actionRowId : String) : Prop :=
  (∀ action ∈ session.actions, action.id ≠ actionRowId) ∧
    ∃ compaction ∈ after.actions, compaction.id = actionRowId ∧ NamedBy model compaction

/-- What an operation does to a row. -/
inductive ActionMove (session : RecordedSession) (operation : ActionOperation)
    (after : RecordedSession) (action next : RecordedAction) : Prop where
  | quiet (move : QuietMove action next)
  | blocks {request : BlockRequest} {drawn : DrawnCompaction} {laterMs : Nat}
      (isBlock : operation = .blockModelActionForCompaction request drawn laterMs)
      (same : SameAction action next) (isModel : action.isModel = true)
      (startable : action.status = .pending ∨ action.status = .running)
      (blocked : next.status = .blocked) (waits : next.waitsFor = some drawn.actionRowId)
      (created : CreatedCompaction session after next drawn.actionRowId)
  | releases {job : StoredCompactionJob} {completion : CompactionCompletion} {ids : Nat → EntryId}
      {rootTimestampMs : Nat}
      (isComplete : operation = .completeCompactionAction job completion ids rootTimestampMs)
      (same : SameAction action next) (isNamed : action.isNamedBy job.scope = true)
      (blocked : action.status = .blocked) (released : next.status = .pending)
      (unfinished : ∃ compaction ∈ session.actions, compaction.isUnfinishedCompaction job = true)
      (completed : ∀ compaction ∈ after.actions,
        compaction.row.isAttempt job.actionRowId job.attemptId = true →
          compaction.status = .completed)

/-- A row that an operation inserts: a request, a compaction at a boundary, or the
compaction for which a model action is blocked. -/
inductive NewAction (operation : ActionOperation) (after : RecordedSession)
    (action : RecordedAction) : Prop where
  | requested (noJob : action.job = none) (plain : action.isCompaction = false)
      (notBlocked : action.status ≠ .blocked)
  | boundary {job : StoredCompactionJob} (isJob : action = .ofJob job)
      (noModel : ∀ other : RecordedAction, other.isNamedBy job.scope = false)
  | blocking {job : StoredCompactionJob} {request : BlockRequest} {drawn : DrawnCompaction}
      {laterMs : Nat} (isBlock : operation = .blockModelActionForCompaction request drawn laterMs)
      (isJob : action = .ofJob job) (isDrawn : job.actionRowId = drawn.actionRowId)
      (model : ∃ model ∈ after.actions, model.isNamedBy job.scope = true ∧
        model.status = .blocked ∧ model.waitsFor = some job.actionRowId)

namespace RecordedSession

variable {session after : RecordedSession} {operation : ActionOperation}

/-- The rows of a session evolve under an operation. -/
abbrev ActionsEvolve (session : RecordedSession) (operation : ActionOperation)
    (after : RecordedSession) : Prop :=
  Evolves (ActionMove session operation after) (NewAction operation after) session.actions
    after.actions

theorem stays_evolve (same : after.actions = session.actions) :
    ActionsEvolve session operation after := by
  rw [ActionsEvolve, same]
  exact .refl fun action _ => .quiet (.refl action)

theorem write_evolves {change : RecordedAction → RecordedAction}
    (same : after.actions = session.actions.map change)
    (quiet : ∀ action ∈ session.actions, QuietMove action (change action)) :
    ActionsEvolve session operation after := by
  rw [ActionsEvolve, same]
  exact .of_map fun action mem => .quiet (quiet action mem)

/-- A request that an output has recorded. -/
def Requested (action : RecordedAction) : Prop :=
  action.job = none ∧ action.isCompaction = false ∧ action.status ≠ .blocked

variable {action next model compaction : RecordedAction} {nowMs : Nat} {job : StoredCompactionJob}

theorem Requested.move (requested : Requested action) (move : QuietMove action next) :
    Requested next := by
  obtain ⟨noJob, plain, notBlocked⟩ := requested
  refine ⟨move.same.job.trans noJob, move.same.isCompaction.trans plain, ?_⟩
  intro blocked
  rcases move.move with ⟨status, _⟩ | ⟨_, ended⟩ | ⟨_, running, _⟩
  · exact notBlocked (status.symm.trans blocked)
  · rw [isUnfinished, blocked] at ended
    cases ended
  · cases running.symm.trans blocked

theorem quiet_trans {rows middle later : List RecordedAction}
    (first : Evolves QuietMove Requested rows middle)
    (second : Evolves QuietMove Requested middle later) : Evolves QuietMove Requested rows later :=
  first.trans second (fun _ _ _ prior next => prior.trans next)
    fun _ _ requested move => requested.move move

theorem recordActions_evolve {actions : List (Option MarkedAction)}
    (requests : ∀ row, some row ∈ actions →
      row.status = .pending ∧ row.action.payload.kind ≠ .compaction) (rows : List RecordedAction) :
    Evolves QuietMove Requested rows (actions.foldl recordAction rows) := by
  induction actions generalizing rows with
  | nil => exact .refl fun action _ => .refl action
  | cons first _ ih =>
    have restRequests := fun row mem => requests row (.tail _ mem)
    have recorded : Evolves QuietMove Requested rows (recordAction rows first) := by
      cases first with
      | none => exact .of_map fun action _ => action.cancel_quiet _
      | some row =>
        obtain ⟨pending, notCompaction⟩ := requests row (.head _)
        refine .append (fun action _ => .refl action) ?_
        intro action isNew
        obtain rfl := mem_singleton.mp isNew
        refine ⟨rfl, beq_eq_false_iff_ne.mpr notCompaction, ?_⟩
        intro blocked
        cases pending.symm.trans blocked
    exact quiet_trans recorded (ih restRequests (recordAction rows first))

theorem outputChange_quiet {outputs : ChildOutputBatch}
    (final : ∀ update ∈ outputs.actionUpdate, update.status.isUnfinished = false)
    (result : ActionResult) (nowMs : Nat) (action : RecordedAction) :
    QuietMove action (session.outputChange outputs result nowMs action) := by
  cases isUpdate : outputs.actionUpdate with
  | none =>
    rw [outputChange, isUpdate]
    split
    · exact .refl action
    · exact interruptCaptured_quiet _ _ _
  | some update =>
    have completed : QuietMove action (action.complete update result outputs.sessionEvents nowMs) :=
      complete_quiet (final update isUpdate) _ _ _
    rw [outputChange, isUpdate]
    split
    · exact completed
    · exact completed.trans (interruptCaptured_quiet _ _ _)

theorem persistOutputs_evolves {outputs : ChildOutputBatch} {result : ActionResult}
    (promised : session.Promised (.persistOutputs outputs result))
    (persisted : session.persistOutputs outputs result nowMs = some after) :
    ActionsEvolve session operation after := by
  obtain ⟨final, requests⟩ := promised
  obtain ⟨-, _, rfl⟩ := Option.map_eq_some_iff.mp persisted
  have changed : Evolves QuietMove Requested session.actions
      (session.actions.map (session.outputChange outputs result nowMs)) :=
    .of_map fun action _ => outputChange_quiet final result nowMs action
  exact (quiet_trans changed (recordActions_evolve requests _)).mono
    (fun _ _ _ move => .quiet move) fun _ requested =>
      .requested requested.1 requested.2.1 requested.2.2

theorem canBlock_isNamed (session : RecordedSession) (sourceLeafId : EntryId)
    (drawn : DrawnCompaction) {request : BlockRequest} {laterMs : Nat}
    (found : model.row.canBlock request nowMs) (blocks : action.row.canBlock request laterMs) :
    action.isModel ∧ (action.status = .pending ∨ action.status = .running) ∧
      action.isNamedBy (session.blockingJob model sourceLeafId drawn).scope := by
  simp only [MarkedAction.canBlock, MarkedAction.isAttempt, Bool.and_eq_true, beq_iff_eq]
    at found blocks
  obtain ⟨⟨⟨⟨foundId, foundAttempt⟩, _⟩, _⟩, _⟩ := found
  obtain ⟨⟨⟨⟨isId, isAttempt⟩, isModel⟩, status⟩, _⟩ := blocks
  refine ⟨isModel, ?_, ?_⟩
  · show action.row.status = _ ∨ action.row.status = _
    rw [status]
    exact request.dispatchable
  · show (action.row.id == model.row.id && action.row.attemptId == model.row.attemptId
      && action.isModel)
    rw [isId, isAttempt, foundId, foundAttempt, Bool.and_eq_true, Bool.and_eq_true, beq_iff_eq,
      beq_iff_eq]
    exact ⟨⟨rfl, rfl⟩, isModel⟩

theorem block_evolves {request : BlockRequest} {drawn : DrawnCompaction} {laterMs : Nat}
    (isBlock : operation = .blockModelActionForCompaction request drawn laterMs)
    (blocked : session.blockModelActionForCompaction request drawn nowMs laterMs = .ok after)
    (keyed : after.Keyed) : ActionsEvolve session operation after := by
  rw [blockModelActionForCompaction] at blocked
  split at blocked
  · cases blocked
  rename_i model found
  have isFound := find?_some found
  split at blocked
  · cases blocked
  rename_i sourceLeafId _
  split at blocked
  · cases blocked
  split at blocked
  · rename_i reached
    cases blocked
    let job := session.blockingJob model sourceLeafId drawn
    let block := fun action : RecordedAction =>
      action.block request job drawn.autoLimitTokens laterMs
    have keepsId : ∀ action : RecordedAction, (block action).id = action.id := by
      intro action
      show (if _ then _ else _ : RecordedAction).id = action.id
      split <;> rfl
    have created : ∀ model : RecordedAction, model.isNamedBy job.scope →
        CreatedCompaction session
          { session with actions := session.actions.map block ++ [.ofJob job] } model
          drawn.actionRowId := by
      intro model isNamed
      refine ⟨?_, .ofJob job, mem_append_right _ (.head _), rfl, rfl, rfl, job, rfl, rfl, isNamed⟩
      intro action mem same
      rw [Keyed, map_append, nodup_append] at keyed
      exact keyed.2.2 (block action).id (mem_map_of_mem (mem_map_of_mem mem)) drawn.actionRowId
        mem_cons_self ((keepsId action).trans same)
    refine ⟨block, _, rfl, ?_, ?_⟩
    · intro action mem
      by_cases blocks : action.row.canBlock request laterMs
      · have isBlocked : block action = action.settle .blocked _ := if_pos blocks
        obtain ⟨isModel, startable, isNamed⟩ :=
          canBlock_isNamed session sourceLeafId drawn isFound blocks
        rw [isBlocked]
        exact .blocks isBlock ⟨rfl, rfl, rfl, rfl⟩ isModel startable rfl rfl (created _ isNamed)
      · have stays : block action = action := if_neg blocks
        rw [stays]
        exact .quiet (.refl action)
    · intro compaction isNew
      obtain ⟨action, mem, blocks⟩ := any_eq_true.mp reached
      have isNamed := (canBlock_isNamed session sourceLeafId drawn isFound blocks).2.2
      have isBlocked : block action = action.settle .blocked _ := if_pos blocks
      refine .blocking isBlock (mem_singleton.mp isNew) rfl
        ⟨block action, mem_append_left _ (mem_map_of_mem mem), ?_⟩
      rw [isBlocked]
      exact ⟨isNamed, rfl, rfl⟩
  · cases blocked

theorem create_evolves {drawn : DrawnCompaction} {sourceRead : Except String Unit}
    (created : session.createCompactionAction drawn sourceRead = .ok after) :
    ActionsEvolve session operation after := by
  rw [createCompactionAction] at created
  split at created
  · cases created
  · cases sourceRead with
    | error => cases created
    | ok =>
      cases created
      refine .append (fun action _ => .quiet (.refl action)) ?_
      intro compaction isNew
      exact .boundary (mem_singleton.mp isNew) fun _ => rfl

theorem Keyed.eq_of_id (keyed : session.Keyed) {first second : RecordedAction}
    (inRows : first ∈ session.actions) (alsoInRows : second ∈ session.actions)
    (same : first.id = second.id) : first = second :=
  inj_on_of_nodup_map keyed inRows alsoInRows same

theorem isAttempt_id {rowId attemptId : String}
    (isAttempt : action.row.isAttempt rowId attemptId) : action.id = rowId := by
  rw [MarkedAction.isAttempt, Bool.and_eq_true, beq_iff_eq] at isAttempt
  exact isAttempt.1

theorem isUnfinishedCompaction_id (isOpen : compaction.isUnfinishedCompaction job) :
    compaction.id = job.actionRowId := by
  simp only [isUnfinishedCompaction, Bool.and_eq_true] at isOpen
  exact isAttempt_id isOpen.1.1

theorem install_moves (keyed : session.Keyed) {completion : CompactionCompletion}
    {ids : Nat → EntryId} {rootTimestampMs : Nat} (isRow : compaction ∈ session.actions)
    (isOpen : compaction.isUnfinishedCompaction job) (completed : ∀ compaction ∈ after.actions,
      compaction.row.isAttempt job.actionRowId job.attemptId →
        compaction.status = .completed) (mem : action ∈ session.actions) (leafId : EntryId)
    (result : ActionResult) :
    ActionMove session (.completeCompactionAction job completion ids rootTimestampMs) after action
      ((action.release job.scope leafId).completeCompaction job result) := by
  have compactionId := isUnfinishedCompaction_id isOpen
  simp only [isUnfinishedCompaction, Bool.and_eq_true] at isOpen
  -- Only the row of the job has its attempt.
  have only : action.row.isAttempt job.actionRowId job.attemptId → action = compaction :=
    fun isAttempt =>
      keyed.eq_of_id mem isRow ((isAttempt_id isAttempt).trans compactionId.symm)
  by_cases waits : (action.isNamedBy job.scope && action.status == .blocked)
  · have released : action.release job.scope leafId =
        { action with row := action.row.releaseForDispatch leafId, result := none } := if_pos waits
    rw [Bool.and_eq_true, beq_iff_eq] at waits
    have isModel : action.isModel := by
      cases hScope : job.scope with
      | boundary =>
        rw [hScope] at waits
        cases waits.1
      | midTurn =>
        rw [hScope, isNamedBy, Bool.and_eq_true] at waits
        exact waits.1.2
    have notJob : ¬ action.row.isAttempt job.actionRowId job.attemptId := by
      intro isAttempt
      obtain rfl := only isAttempt
      have model := beq_iff_eq.mp isModel
      have compaction := beq_iff_eq.mp isOpen.1.2
      cases model.symm.trans compaction
    have stays : (action.release job.scope leafId).completeCompaction job result =
        action.release job.scope leafId := by
      rw [released]
      exact if_neg notJob
    rw [stays, released]
    exact .releases rfl ⟨rfl, rfl, (beq_iff_eq.mp isModel).symm, rfl⟩ waits.1 waits.2 rfl
      ⟨compaction, isRow, by
        simp only [isUnfinishedCompaction, Bool.and_eq_true]
        exact isOpen⟩ completed
  · have stays : action.release job.scope leafId = action := if_neg waits
    rw [stays, completeCompaction]
    split
    · rename_i isAttempt
      obtain rfl := only isAttempt
      exact .quiet (.finish isOpen.2 rfl)
    · exact .quiet (.refl action)

theorem complete_evolves (keyed : session.Keyed) (job : StoredCompactionJob)
    (completion : CompactionCompletion) (ids : Nat → EntryId) (rootTimestampMs : Nat) :
    ActionsEvolve session (.completeCompactionAction job completion ids rootTimestampMs)
      (session.completeCompactionAction job completion ids rootTimestampMs) := by
  rw [completeCompactionAction]
  split
  · exact stays_evolve rfl
  · rename_i isOpen
    rw [Bool.not_eq_true, Bool.not_eq_false'] at isOpen
    split
    · exact write_evolves rfl fun action _ => action.finishCompaction_quiet job rfl _
    · obtain ⟨_, isRow, isCompaction⟩ := any_eq_true.mp isOpen
      refine .of_map fun action mem => install_moves keyed isRow isCompaction ?_ mem _ _
      intro later isLater isAttempt
      obtain ⟨_, _, rfl⟩ := mem_map.mp isLater
      rw [completeCompaction] at isAttempt ⊢
      split at isAttempt
      · rename_i admitted
        rw [if_pos admitted]
        rfl
      · rename_i refused
        exact absurd isAttempt refused

theorem fail_evolves (job : StoredCompactionJob) (error : String) :
    ActionsEvolve session operation (session.failCompactionAction job error) := by
  rw [failCompactionAction]
  split
  · exact stays_evolve rfl
  · exact write_evolves rfl fun action _ =>
      (action.failBlocked_quiet job.scope error).trans (finishCompaction_quiet _ job rfl error)

/-- An operation moves the rows as their statuses allow. -/
theorem perform_evolves (keyed : session.Keyed) (promised : session.Promised operation)
    (stays : (session.perform nowMs operation).Keyed) :
    ActionsEvolve session operation (session.perform nowMs operation) := by
  cases operation with
  | persistOutputs outputs result =>
    show ActionsEvolve session _ ((session.persistOutputs outputs result nowMs).getD session)
    cases persisted : session.persistOutputs outputs result nowMs with
    | none => exact stays_evolve rfl
    | some => exact persistOutputs_evolves promised persisted
  | recoverSession => exact write_evolves rfl fun action _ => action.markUnfinishedStale_quiet
  | blockModelActionForCompaction request drawn laterMs =>
    have same : session.perform nowMs (.blockModelActionForCompaction request drawn laterMs) =
        (session.blockModelActionForCompaction request drawn nowMs laterMs).toOption.getD
          session := rfl
    rw [same] at stays ⊢
    cases blocked : session.blockModelActionForCompaction request drawn nowMs laterMs with
    | error => exact stays_evolve rfl
    | ok =>
      rw [blocked] at stays
      exact block_evolves rfl blocked stays
  | createCompactionAction drawn sourceRead =>
    show ActionsEvolve session _
      ((session.createCompactionAction drawn sourceRead).toOption.getD session)
    cases created : session.createCompactionAction drawn sourceRead with
    | error => exact stays_evolve rfl
    | ok => exact create_evolves created
  | completeCompactionAction job completion ids rootTimestampMs =>
    exact complete_evolves keyed job completion ids rootTimestampMs
  | failCompactionAction job error => exact fail_evolves job error
  | claimPendingModelAction actionRowId attemptId =>
    exact write_evolves rfl fun action _ => (action.claimPending_live actionRowId attemptId).quiet
  | claimPostCompactionModelAction intent leaseDurationMs =>
    exact write_evolves rfl fun action _ =>
      (action.claimPostCompaction_live intent leaseDurationMs nowMs _).quiet
  | renewPostCompactionDispatchLease actionRowId attemptId lease leaseDurationMs =>
    exact write_evolves rfl fun action _ =>
      (action.renew_live actionRowId attemptId lease leaseDurationMs nowMs).quiet
  | markActionRunning actionRowId attemptId =>
    exact write_evolves rfl fun action _ => (action.markRunning_live actionRowId attemptId).quiet
  | markActionStale actionRowId attemptId lease =>
    exact write_evolves rfl fun action _ =>
      action.markActionStale_quiet actionRowId attemptId lease nowMs
  | failCorruptPostCompactionModelAction intent _ error =>
    exact write_evolves rfl fun action _ => action.failCorrupt_quiet intent promised error
  | failUnfinishedModelAction actionRowId attemptId lease error =>
    exact write_evolves rfl fun action _ =>
      action.failModel_quiet actionRowId attemptId lease error nowMs
  | cancelUnfinishedSessionWork reason =>
    exact write_evolves rfl fun action _ => action.cancel_quiet reason
  | markUnfinishedActionsStale =>
    exact write_evolves rfl fun action _ => action.markUnfinishedStale_quiet
  | markAllUnfinishedActionsStale =>
    refine write_evolves rfl fun action _ => ?_
    split
    · exact .refl action
    · exact action.markUnfinishedStale_quiet
  | applySubagentControlInterruptAtBoundary inputId =>
    show ActionsEvolve session _ ((session.applyControlAtBoundary inputId).toOption.getD session)
    rw [applyControlAtBoundary]
    cases session.child.applySubagentControlInterruptAtBoundary inputId with
    | error => exact stays_evolve rfl
    | ok =>
      dsimp only [Except.map, Except.toOption, Option.getD]
      split
      · exact write_evolves rfl fun action _ => action.interruptCaptured_quiet _ _
      · exact stays_evolve rfl
  | elsewhere => exact stays_evolve rfl

theorem isNamedBy_id {other : RecordedAction} {scope : CompactionScope}
    (isNamed : action.isNamedBy scope) (alsoNamed : other.isNamedBy scope) :
    action.id = other.id := by
  cases scope with
  | boundary => cases isNamed
  | midTurn =>
    rw [isNamedBy, Bool.and_eq_true] at isNamed alsoNamed
    exact (isAttempt_id isNamed.1).trans (isAttempt_id alsoNamed.1).symm

/-- The model action has ended, or it waits for this compaction. -/
def Awaits (model compaction : RecordedAction) : Prop :=
  model.isUnfinished = false ∨
    model.status = .blocked ∧ model.waitsFor = some compaction.id

/-- While a compaction is unfinished, the model action that its job names does not go on
without it. -/
structure Linked (session : RecordedSession) : Prop where
  keyed : session.Keyed
  awaits : ∀ compaction ∈ session.actions, compaction.isUnfinished = true →
    ∀ job, compaction.job = some job →
      (∀ other : RecordedAction, other.isNamedBy job.scope = false) ∨
        ∃ model ∈ session.actions, model.isNamedBy job.scope = true ∧ Awaits model compaction

theorem Linked.released (linked : session.Linked) {completion : CompactionCompletion}
    {ids : Nat → EntryId} {rootTimestampMs : Nat}
    (promised : session.Promised (.completeCompactionAction job completion ids rootTimestampMs))
    (mem : model ∈ session.actions) (isNamed : model.isNamedBy job.scope)
    (blocked : model.status = .blocked) (isRow : compaction ∈ session.actions)
    (isOpen : compaction.isUnfinishedCompaction job) : model.waitsFor = some job.actionRowId := by
  have compactionId := isUnfinishedCompaction_id isOpen
  have hasJob := promised compaction isRow compactionId
  rw [isUnfinishedCompaction, Bool.and_eq_true] at isOpen
  rcases linked.awaits compaction isRow isOpen.2 job hasJob with noModel | ⟨other, inRows, named, awaits⟩
  · rw [noModel model] at isNamed
    cases isNamed
  · obtain rfl := linked.keyed.eq_of_id mem inRows (isNamedBy_id isNamed named)
    rcases awaits with ended | ⟨_, waits⟩
    · rw [isUnfinished, blocked] at ended
      cases ended
    · rw [← compactionId]
      exact waits

theorem Awaits.of_quiet (awaits : Awaits model compaction) (move : QuietMove model next) :
    Awaits next compaction := by
  rcases awaits with ended | ⟨blocked, waits⟩
  · refine .inl ?_
    rw [isUnfinished, (move.ended ended).1]
    exact ended
  · rcases move.move with ⟨status, result⟩ | ⟨_, ended⟩ | ⟨pending, _, _⟩
    · refine .inr ⟨status.trans blocked, ?_⟩
      rw [waitsFor, result]
      exact waits
    · exact .inl ended
    · cases pending.symm.trans blocked

theorem Awaits.congr {other : RecordedAction} (awaits : Awaits model compaction)
    (same : other.id = compaction.id) : Awaits model other := by
  rw [Awaits, same]
  exact awaits

theorem move_unfinished (move : ActionMove session operation after action next)
    (unfinished : next.isUnfinished) : action.isUnfinished := by
  cases move with
  | quiet move =>
    by_contra notUnfinished
    rw [Bool.not_eq_true] at notUnfinished
    rw [isUnfinished, (move.ended notUnfinished).1] at unfinished
    exact absurd unfinished (by simpa [isUnfinished] using notUnfinished)
  | blocks _ _ _ startable =>
    rw [isUnfinished]
    rcases startable with pending | running
    · rw [pending]
      rfl
    · rw [running]
      rfl
  | releases _ _ _ blocked =>
    rw [isUnfinished, blocked]
    rfl

theorem move_same (move : ActionMove session operation after action next) :
    SameAction action next := by
  cases move with
  | quiet move => exact move.same
  | blocks _ same | releases _ same => exact same

/-- What waits for a compaction stays linked to it. -/
theorem Linked.evolves (linked : session.Linked) (promised : session.Promised operation)
    (evolves : ActionsEvolve session operation after) (keyed : after.Keyed) : after.Linked where
  keyed := keyed
  awaits := by
    intro compaction isRow unfinished job hasJob
    rcases evolves.predecessor isRow with isNew | ⟨prior, priorRow, moved⟩
    · cases isNew with
      | requested noJob => cases noJob.symm.trans hasJob
      | boundary isJob noModel =>
        rw [isJob] at hasJob
        cases hasJob
        exact .inl noModel
      | blocking _ isJob _ waiting =>
        rw [isJob] at hasJob ⊢
        cases hasJob
        obtain ⟨model, modelRow, isNamed, blocked, waits⟩ := waiting
        exact .inr ⟨model, modelRow, isNamed, .inr ⟨blocked, waits⟩⟩
    · have same := move_same moved
      have priorJob : prior.job = some job := same.job.symm.trans hasJob
      rcases linked.awaits prior priorRow (move_unfinished moved unfinished) job priorJob with
        noModel | ⟨model, modelRow, isNamed, awaits⟩
      · exact .inl noModel
      · obtain ⟨next, nextRow, modelMoved⟩ := evolves.successor modelRow
        have stillNamed : next.isNamedBy job.scope :=
          ((move_same modelMoved).isNamedBy job.scope).trans isNamed
        refine .inr ⟨next, nextRow, stillNamed, ?_⟩
        cases modelMoved with
        | quiet move => exact (awaits.of_quiet move).congr same.id
        | blocks _ _ _ startable =>
          -- It waits already, or it has ended.
          exfalso
          rcases awaits with ended | ⟨blocked, _⟩
          · rw [isUnfinished] at ended
            rcases startable with pending | running
            · rw [pending] at ended
              cases ended
            · rw [running] at ended
              cases ended
          · rcases startable with pending | running
            · cases pending.symm.trans blocked
            · cases running.symm.trans blocked
        | releases isComplete _ named blocked _ isOpen completed =>
          -- What releases it is this compaction, which has completed.
          exfalso
          subst isComplete
          obtain ⟨other, otherRow, otherOpen⟩ := isOpen
          have released := linked.released promised modelRow named blocked otherRow otherOpen
          have waits : model.waitsFor = some prior.id := by
            rcases awaits with ended | ⟨_, waits⟩
            · rw [isUnfinished, blocked] at ended
              cases ended
            · exact waits
          have isPrior : prior.id = other.id := (Option.some.inj (waits.symm.trans released)).trans
              (isUnfinishedCompaction_id otherOpen).symm
          obtain rfl := linked.keyed.eq_of_id priorRow otherRow isPrior
          rw [isUnfinishedCompaction, Bool.and_eq_true, Bool.and_eq_true,
            MarkedAction.isAttempt] at otherOpen
          have isAttempt := otherOpen.1.1
          have ended := completed compaction isRow (by
            show (compaction.id == _ && compaction.attemptId == _)
            rw [same.id, same.attemptId]
            exact isAttempt)
          rw [isUnfinished, ended] at unfinished
          cases unfinished

theorem reached_linked (reaches : actionRuns.Reaches session) : session.Linked := by
  refine reaches.invariant ?_ ?_
  · intro initial isInitial
    have isEmpty : initial.actions = [] := isInitial
    constructor
    · rw [Keyed, isEmpty]
      exact nodup_nil
    · intro compaction isRow
      rw [isEmpty] at isRow
      cases isRow
  · rintro prior ⟨_, _⟩ _ - linked ⟨promised, rfl, keyed⟩
    exact linked.evolves promised (perform_evolves linked.keyed promised keyed) keyed

end RecordedSession

def mayBecome : ActionStatus → ActionStatus → Bool
  | .pending, _ => true
  | .running, next => next != .pending
  | .blocked, next => next != .running
  | ended, next => next == ended

structure StatusMove (session : RecordedSession) (operation : ActionOperation)
    (after : RecordedSession) (action next : RecordedAction) : Prop where
  same : SameAction action next
  follows : mayBecome action.status next.status = true
  ended : action.isUnfinished = false →
    next.status = action.status ∧ next.result = action.result
  blocks : action.status ≠ .blocked → next.status = .blocked →
    ∃ request drawn laterMs,
      operation = .blockModelActionForCompaction request drawn laterMs ∧
        CreatedCompaction session after next drawn.actionRowId ∧
          next.waitsFor = some drawn.actionRowId
  waits : action.status = .blocked → next.status = .blocked → next.result = action.result
  releases : action.status = .blocked → next.status = .pending →
    ∃ job completion ids rootTimestampMs,
      operation = .completeCompactionAction job completion ids rootTimestampMs ∧
        action.waitsFor = some job.actionRowId

theorem mayBecome_refl (status : ActionStatus) : mayBecome status status := by
  cases status <;> rfl

theorem mayBecome_ended {status next : ActionStatus} (unfinished : status.isUnfinished)
    (ended : next.isUnfinished = false) : mayBecome status next := by
  revert unfinished ended
  cases status <;> cases next <;> decide

theorem QuietMove.statusMove (quiet : QuietMove action next) :
    StatusMove session operation after action next := by
  have ended := quiet.ended
  rcases quiet with ⟨same, ⟨status, result⟩ | ⟨unfinished, final⟩ | ⟨pending, running, _⟩⟩
  · refine ⟨same, ?_, ended, ?_, fun _ _ => result, ?_⟩
    · rw [status]
      exact mayBecome_refl _
    · intro notBlocked blocked
      exact absurd (status.symm.trans blocked) notBlocked
    · intro blocked released
      cases blocked.symm.trans (status.symm.trans released)
  · refine ⟨same, mayBecome_ended unfinished final, ended, ?_, ?_, ?_⟩
    all_goals
      intro _ unfinished
      rw [isUnfinished, unfinished] at final
      cases final
  · refine ⟨same, ?_, ended, ?_, ?_, ?_⟩
    · rw [pending]
      rfl
    · intro _ blocked
      cases running.symm.trans blocked
    · intro blocked _
      cases pending.symm.trans blocked
    · intro blocked _
      cases pending.symm.trans blocked

theorem ActionMove.statusMove (linked : session.Linked) (promised : session.Promised operation)
    (mem : action ∈ session.actions) (move : ActionMove session operation after action next) :
    StatusMove session operation after action next := by
  cases move with
  | quiet quiet => exact quiet.statusMove
  | blocks isBlock same _ startable blocked waits created =>
    refine ⟨same, ?_, ?_, fun _ _ => ⟨_, _, _, isBlock, created, waits⟩, ?_, ?_⟩
    · rw [blocked]
      rcases startable with pending | running
      · rw [pending]
        rfl
      · rw [running]
        rfl
    · intro ended
      rw [isUnfinished] at ended
      rcases startable with pending | running
      · rw [pending] at ended
        cases ended
      · rw [running] at ended
        cases ended
    · intro wasBlocked _
      rcases startable with pending | running
      · cases pending.symm.trans wasBlocked
      · cases running.symm.trans wasBlocked
    · intro _ released
      cases blocked.symm.trans released
  | releases isComplete same isNamed blocked released isOpen =>
    subst isComplete
    obtain ⟨_, isRow, isOpen⟩ := isOpen
    have waits := linked.released promised mem isNamed blocked isRow isOpen
    refine ⟨same, ?_, ?_, ?_, ?_, fun _ _ => ⟨_, _, _, _, rfl, waits⟩⟩
    · rw [blocked, released]
      rfl
    · intro ended
      rw [isUnfinished, blocked] at ended
      cases ended
    · intro notBlocked
      exact absurd blocked notBlocked
    · intro _ stillBlocked
      cases released.symm.trans stillBlocked

theorem step_statusMove {nowMs : Nat} (reaches : actionRuns.Reaches session)
    (step : actionRuns.step session (nowMs, operation) after) (mem : action ∈ session.actions) :
    ∃ next ∈ after.actions, StatusMove session operation after action next := by
  obtain ⟨promised, rfl, keyed⟩ := step
  have linked := RecordedSession.reached_linked reaches
  obtain ⟨next, isRow, move⟩ :=
    (RecordedSession.perform_evolves linked.keyed promised keyed).successor mem
  exact ⟨next, isRow, move.statusMove linked promised mem⟩

/-- Every operation follows the status machine on every row, and what has ended stays as it
ended to the end of the run. -/
theorem action_statuses_follow {session : RecordedSession}
    (reaches : actionRuns.Reaches session) :
    (∀ nowMs operation after, actionRuns.step session (nowMs, operation) after →
      ∀ action ∈ session.actions, ∃ next ∈ after.actions,
        StatusMove session operation after action next) ∧
    ∀ later, actionRuns.Leads session later →
      ∀ action ∈ session.actions, action.isUnfinished = false → ∃ last ∈ later.actions,
        SameAction action last ∧ last.status = action.status ∧ last.result = action.result := by
  refine ⟨fun _ _ _ step _ mem => step_statusMove reaches step mem, ?_⟩
  intro later leads action mem ended
  have kept := leads.relates (motive := fun later => ∃ last ∈ later.actions,
      SameAction action last ∧ last.status = action.status ∧ last.result = action.result)
    reaches ⟨action, mem, .refl action, rfl, rfl⟩
  refine kept ?_
  rintro middle ⟨nowMs, operation⟩ after reached ⟨last, isRow, same, status, result⟩ step
  obtain ⟨next, isNext, move⟩ := step_statusMove reached step isRow
  have stays := move.ended (by
    rw [isUnfinished, status]
    exact ended)
  exact ⟨next, isNext, same.trans move.same, stays.1.trans status, stays.2.trans result⟩

def sampleHome : ChildSession where
  id := "session"
  parentSessionId := none
  delegationId := none
  subagentType := none
  delegation := { id := "", parentSessionId := "", status := .running }
  entries := []
  activeLeafId := some "leaf"
  actions := []
  mailbox := []

def sampleOutputs : ChildOutputBatch where
  entries := []
  activeLeafId := some "leaf"
  sessionEvents := []
  actions :=
    [some
      { id := "model"
        attemptId := "attempt_1"
        action := { status := .pending, actionId := 1, turnId := 1, payload := .model (some "leaf") }
        postCompactionDispatch := none }]
  actionUpdate := none
  consumedInput := none
  controlInterruptInputId := none

def sampleRequest : BlockRequest where
  rowId := "model"
  attemptId := "attempt_1"
  expectedStatus := .pending
  dispatchable := .inl rfl
  lease := none
  sourceRead := .ok ()

def sampleDrawn : DrawnCompaction where
  actionRowId := "compaction"
  attemptId := "attempt_2"
  tokensBefore := none
  autoLimitTokens := none
  lastTurnId := 1
  turnStartedAtMs := none
  trigger := .auto "threshold"

def sampleRequested : RecordedSession :=
  RecordedSession.perform ⟨sampleHome, []⟩ 0 (.persistOutputs sampleOutputs (.reported ""))

def sampleBlocked : RecordedSession :=
  sampleRequested.perform 0 (.blockModelActionForCompaction sampleRequest sampleDrawn 0)

theorem sample_requests : actionRuns.step ⟨sampleHome, []⟩
    (0, .persistOutputs sampleOutputs (.reported "")) sampleRequested := by
  refine ⟨⟨nofun, fun requested mem => ?_⟩, rfl, by decide +kernel⟩
  cases mem_singleton.mp mem
  exact ⟨rfl, nofun⟩

theorem sample_blocks : actionRuns.step sampleRequested
    (0, .blockModelActionForCompaction sampleRequest sampleDrawn 0) sampleBlocked :=
  ⟨trivial, rfl, by decide +kernel⟩

/-- The compaction fails, and it and its model action stay as they ended. -/
theorem failed_compaction_stays_failed : ∃ session : RecordedSession,
    session.actions.map RecordedAction.status = [.error, .error] ∧
    ∀ later, actionRuns.Leads session later →
      ∀ action ∈ session.actions, ∃ last ∈ later.actions,
        last.id = action.id ∧ last.status = .error ∧ last.result = action.result := by
  let job : StoredCompactionJob :=
    { actionRowId := "compaction"
      attemptId := "attempt_2"
      sourceSessionId := "session"
      sourceLeafId := "leaf"
      tokensBefore := none
      lastTurnId := 1
      turnStartedAtMs := none
      trigger := .auto "threshold"
      scope := .midTurn "leaf" 1 1 "model" "attempt_1" }
  let failed := sampleBlocked.perform 0 (.failCompactionAction job "no provider")
  have jobs : ∀ action ∈ sampleBlocked.actions,
      action.id = job.actionRowId → action.job = some job := by
    decide +kernel
  have initially : actionRuns.Reaches ⟨sampleHome, []⟩ := .start rfl
  have fails : actionRuns.step sampleBlocked (0, .failCompactionAction job "no provider") failed :=
    ⟨jobs, rfl, by decide +kernel⟩
  have reaches : actionRuns.Reaches failed :=
    ((initially.next sample_requests).next sample_blocks).next fails
  have statuses : failed.actions.map RecordedAction.status = [.error, .error] := by
    decide +kernel
  have ended : ∀ action ∈ failed.actions, action.status = .error ∧ action.isUnfinished = false := by
    decide +kernel
  refine ⟨failed, statuses, fun later leads action mem => ?_⟩
  obtain ⟨last, isRow, same, status, result⟩ :=
    (action_statuses_follow reaches).2 later leads action mem (ended action mem).2
  exact ⟨last, isRow, same.id, status.trans (ended action mem).1, result⟩

end PiRelay.Store
