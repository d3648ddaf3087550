import Mathlib.Data.List.Induction
import PiRelay.AgentSession.AppendedEntries
import PiRelay.AgentStore.Database

/-! What the transactions do to the rows. No row is ever removed and no action
changes the completion it stands for; what changes is which actions are
unfinished. -/
namespace PiRelay.Store

open AgentVocab AgentCore Session List

@[simp] theorem ActionRow.setStatus_target (status : ActionStatus) (row : ActionRow) :
    (row.setStatus status).target = row.target := rfl

@[simp] theorem ActionRow.finish_target (status : ActionStatus) (row : ActionRow) :
    (row.finish status).target = row.target := by
  rw [finish]
  split <;> rfl

/-- Some unfinished action stands for the completion. -/
def Covered (actions : List ActionRow) (target : CompletionTarget) : Prop :=
  ∃ row ∈ actions, row.isUnfinished = true ∧ row.target = some target

namespace Covered

variable {actions : List ActionRow} {target : CompletionTarget}

theorem append (covered : Covered actions target) (more : List ActionRow) :
    Covered (actions ++ more) target := by
  obtain ⟨row, mem, unfinished, hTarget⟩ := covered
  exact ⟨row, mem_append_left _ mem, unfinished, hTarget⟩

theorem not_of_finished (finished : actions.any (·.isUnfinished) = false) :
    ¬ Covered actions target := by
  rintro ⟨row, mem, unfinished, _⟩
  have := any_eq_false.mp finished row mem
  exact this unfinished

theorem modify (covered : Covered actions target) {row : RowId} {change : ActionRow → ActionRow}
    (harmless : ∀ action, actions[row]? = some action → action.target = some target →
      action.isUnfinished →
      (change action).isUnfinished ∧ (change action).target = some target) :
    Covered (actions.modify row change) target := by
  obtain ⟨action, mem, unfinished, hTarget⟩ := covered
  obtain ⟨position, hPosition⟩ := mem_iff_getElem?.mp mem
  by_cases same : row = position
  · subst same
    obtain ⟨stays, still⟩ := harmless action hPosition hTarget unfinished
    refine ⟨change action, mem_iff_getElem?.mpr ⟨row, ?_⟩, stays, still⟩
    simp [hPosition]
  · refine ⟨action, mem_iff_getElem?.mpr ⟨position, ?_⟩, unfinished, hTarget⟩
    simp [same, hPosition]

end Covered

def Database.targets (db : Database) : List (Option CompletionTarget) :=
  db.actions.map ActionRow.target

theorem map_target_modify (actions : List ActionRow) (row : RowId)
    {change : ActionRow → ActionRow} (keeps : ∀ action, (change action).target = action.target) :
    (actions.modify row change).map ActionRow.target = actions.map ActionRow.target := by
  apply ext_getElem?
  intro position
  rw [getElem?_map, getElem?_map, getElem?_modify]
  by_cases same : row = position
  · cases actions[position]? <;> simp [same, keeps]
  · cases actions[position]? <;> simp [same]

namespace Database

section

variable (db : Database)
include db

theorem targets_modifyAction (row : RowId) {change : ActionRow → ActionRow}
    (keeps : ∀ action, (change action).target = action.target) :
    (db.modifyAction row change).targets = db.targets :=
  map_target_modify db.actions row keeps

theorem targets_finishUnfinished (status : ActionStatus) :
    (db.finishUnfinished status).targets = db.targets := by
  simp [targets, finishUnfinished]

end

variable {db after : Database} {batch : OutputBatch} {dispatches : List PersistedAction}

theorem insertEntry_of_unused {entry : TranscriptStorageNode}
    (unused : entry.id ∉ entryIds db.entries) :
    db.insertEntry entry = { db with entries := db.entries ++ [entry] } := by
  have absent : db.entries.any (·.id == entry.id) = false := by
    rw [any_eq_false]
    intro other mem same
    exact unused (eq_of_beq same ▸ mem_map_of_mem mem)
  simp [insertEntry, absent]

theorem insertEntries_of_nodup {entries : List TranscriptStorageNode}
    (nodup : (entryIds (db.entries ++ entries)).Nodup) :
    db.insertEntries entries = { db with entries := db.entries ++ entries } := by
  induction entries generalizing db with
  | nil => simp [insertEntries]
  | cons entry _ ih =>
    have unused : entry.id ∉ entryIds db.entries := by
      rw [entryIds_append] at nodup
      intro taken
      exact (nodup_append'.mp nodup).2.2 taken (.head _)
    rw [insertEntries, foldl_cons, insertEntry_of_unused unused, ← insertEntries, ih]
    · simp
    · simpa using nodup

theorem insertEntries_frame (db : Database) (entries : List TranscriptStorageNode) :
    (db.insertEntries entries).activeLeafId = db.activeLeafId ∧
      (db.insertEntries entries).actions = db.actions ∧
      (db.insertEntries entries).queuedInputs = db.queuedInputs := by
  induction entries generalizing db with
  | nil => exact ⟨rfl, rfl, rfl⟩
  | cons entry _ ih =>
    obtain ⟨hLeaf, hActions, hQueue⟩ := ih (db.insertEntry entry)
    rw [insertEntries, foldl_cons, ← insertEntries, hLeaf, hActions, hQueue, insertEntry]
    split <;> exact ⟨rfl, rfl, rfl⟩

/-- What recording the actions of a batch leaves alone, and where the dispatches
come from. -/
structure Records (before : Database) (actions : List SessionAction) (after : Database)
    (dispatches : List PersistedAction) : Prop where
  entries : after.entries = before.entries
  activeLeafId : after.activeLeafId = before.activeLeafId
  queuedInputs : after.queuedInputs = before.queuedInputs
  targets : before.targets <+: after.targets
  requested : ∀ dispatch ∈ dispatches, dispatch.action ∈ actions

theorem foldl_recordAction_records (db : Database) (actions : List SessionAction) :
    Records db actions (actions.foldl recordAction (db, [])).1
      (actions.foldl recordAction (db, [])).2 := by
  induction actions using List.reverseRecOn with
  | nil =>
    exact
      { entries := rfl
        activeLeafId := rfl
        queuedInputs := rfl
        targets := prefix_rfl
        requested := nofun }
  | append_singleton earlier action ih =>
    rw [foldl_append, foldl_cons, foldl_nil]
    generalize earlier.foldl recordAction (db, []) = recorded at ih ⊢
    obtain ⟨before, dispatches⟩ := recorded
    have kept : ∀ dispatch ∈ dispatches, dispatch.action ∈ earlier ++ [action] :=
      fun dispatch mem => mem_append_left _ (ih.requested dispatch mem)
    cases action with
    | cancelSessionWork =>
      exact
        { entries := ih.entries
          activeLeafId := ih.activeLeafId
          queuedInputs := ih.queuedInputs
          targets := by
            have same := before.targets_finishUnfinished .interrupted
            rw [recordAction, cancelUnfinishedSessionWork, same]
            exact ih.targets
          requested := kept }
    | requestModel | requestTool =>
      exact
        { entries := ih.entries
          activeLeafId := ih.activeLeafId
          queuedInputs := ih.queuedInputs
          targets := by
            refine ih.targets.trans ?_
            simp [recordAction, targets]
          requested := by
            intro dispatch mem
            rcases Library.mem_concat.mp mem with old | rfl
            · exact kept dispatch old
            · exact mem_append_right _ (.head _) }

def recordRow (actions : List ActionRow) : SessionAction → List ActionRow
  | .cancelSessionWork => actions.map (ActionRow.finish .interrupted)
  | .requestModel actionId turnId _ contextLeafId =>
    actions ++ [{ status := .pending, actionId, turnId, payload := .model contextLeafId }]
  | .requestTool actionId turnId toolCall =>
    actions ++ [{ status := .pending, actionId, turnId, payload := .tool toolCall }]

theorem foldl_recordAction_actions (actions : List SessionAction)
    (recorded : Database × List PersistedAction) :
    (actions.foldl recordAction recorded).1.actions =
      actions.foldl recordRow recorded.1.actions := by
  induction actions generalizing recorded with
  | nil => rfl
  | cons action _ ih =>
    rw [foldl_cons, foldl_cons, ih]
    cases action <;> rfl

def queueAfter (db : Database) : Option RowId → List QueuedInput
  | none => db.queuedInputs
  | some input => (db.setInputStatus input .consumed).queuedInputs

def actionsAfter (db : Database) (status : ActionStatus) : Option ActionUpdate → List ActionRow
  | none => db.actions
  | some update => (db.modifyAction update.row (.setStatus status)).actions

theorem consumeInput_some {consumed : Database} {input : Option RowId}
    (consumes : db.consumeInput input = some consumed) :
    consumed = { db with queuedInputs := db.queueAfter input } := by
  cases input with
  | none => exact (Option.some.inj consumes).symm
  | some =>
    rw [consumeInput] at consumes
    split at consumes
    · exact (Option.some.inj consumes).symm
    · cases consumes

theorem completeAction_some {completed : Database} {events : List SessionEvent}
    {update : Option ActionUpdate} (completes : db.completeAction events update = some completed) :
    ∃ status, completed = { db with actions := db.actionsAfter status update } := by
  cases update with
  | none => exact ⟨.completed, (Option.some.inj completes).symm⟩
  | some =>
    rw [completeAction] at completes
    split at completes
    · cases completes
    · split at completes
      · exact ⟨_, (Option.some.inj completes).symm⟩
      · cases completes

/-- Everything a committed batch does. -/
structure Persists (before : Database) (batch : OutputBatch) (after : Database)
    (dispatches : List PersistedAction) : Prop where
  entries : after.entries = (before.insertEntries batch.entries).entries
  activeLeafId : after.activeLeafId = batch.activeLeafId
  queuedInputs : after.queuedInputs = before.queueAfter batch.consumedInput
  recorded : ∃ completed : Database, ∃ status,
    completed.actions = before.actionsAfter status batch.actionUpdate ∧
      batch.actions.foldl recordAction (completed, []) = (after, dispatches)

theorem Persists.requested (persists : Persists db batch after dispatches) :
    ∀ dispatch ∈ dispatches, dispatch.action ∈ batch.actions := by
  obtain ⟨completed, _, _, hRecorded⟩ := persists.recorded
  have records := foldl_recordAction_records completed batch.actions
  rw [hRecorded] at records
  exact records.requested

theorem Persists.targets (persists : Persists db batch after dispatches) :
    db.targets <+: after.targets := by
  obtain ⟨completed, status, hActions, hRecorded⟩ := persists.recorded
  have records := foldl_recordAction_records completed batch.actions
  rw [hRecorded] at records
  have same : completed.targets = db.targets := by
    rw [Database.targets, hActions]
    cases batch.actionUpdate with
    | none => rfl
    | some update => exact map_target_modify db.actions update.row (ActionRow.setStatus_target status)
  exact same ▸ records.targets

/-- What a batch stores, all in one transaction. -/
theorem persistOutputs_persists (persists : db.persistOutputs batch = some (after, dispatches)) :
    Persists db batch after dispatches := by
  rw [persistOutputs] at persists
  split at persists
  · cases persists
  simp only at persists
  split at persists
  · cases persists
  rename_i consumed hConsumed
  split at persists
  · cases persists
  rename_i completed hCompleted
  obtain ⟨_, hActions, hQueue⟩ := db.insertEntries_frame batch.entries
  have hConsumed := consumeInput_some hConsumed
  obtain ⟨status, hCompleted⟩ := completeAction_some hCompleted
  have hRecorded := Option.some.inj persists
  have records := foldl_recordAction_records completed batch.actions
  rw [hRecorded] at records
  refine
    { entries := records.entries.trans (by rw [hCompleted, hConsumed])
      activeLeafId := records.activeLeafId.trans (by rw [hCompleted, hConsumed])
      queuedInputs := records.queuedInputs.trans ?_
      recorded := ⟨completed, status, ?_, hRecorded⟩ }
  · rw [hCompleted, hConsumed]
    cases batch.consumedInput with
    | none => exact hQueue
    | some => simp [queueAfter, setInputStatus, hQueue]
  · rw [hCompleted, hConsumed]
    cases batch.actionUpdate with
    | none => exact hActions
    | some => simp [actionsAfter, modifyAction, hActions]

end Database

end PiRelay.Store
