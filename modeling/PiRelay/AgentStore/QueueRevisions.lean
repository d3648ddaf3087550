import PiRelay.AgentStore.QueueMoves
import PiRelay.Library.Revisions

/-! What clients see of a queue and the revision by which they know it. Whoever edits the
queue at a revision edits the queue that had it. -/
namespace PiRelay.Store

open AgentVocab AgentCore Session List Option
open Library (inOrder_map Revised)

/-- What the revision stands for of an input. -/
structure VisibleInput where
  inputId : String
  content : MailboxContent
  priority : InputPriority
  status : MailboxStatus

def MailboxRow.visible (row : MailboxRow) : VisibleInput where
  inputId := row.id
  content := row.content
  priority := row.priority
  status := row.status

def SessionQueue.visibleQueue (queue : SessionQueue) : List VisibleInput :=
  queue.activeInputs.map MailboxRow.visible

/-- The changed row looks the same and stands in the same place. -/
structure LooksSame (before after : MailboxRow) : Prop where
  visible : after.visible = before.visible
  promotedAt : after.promotedAt = before.promotedAt
  followUpPosition : after.followUpPosition = before.followUpPosition
  createdAt : after.createdAt = before.createdAt

theorem LooksSame.refl (row : MailboxRow) : LooksSame row row := ⟨rfl, rfl, rfl, rfl⟩

theorem LooksSame.trans {before middle after : MailboxRow} (first : LooksSame before middle)
    (second : LooksSame middle after) : LooksSame before after :=
  ⟨second.visible.trans first.visible, second.promotedAt.trans first.promotedAt,
    second.followUpPosition.trans first.followUpPosition, second.createdAt.trans first.createdAt⟩

namespace LooksSame

variable {row after other otherAfter : MailboxRow}

theorem isActive (same : LooksSame row after) : after.isActive = row.isActive := by
  have status : after.status = row.status := congrArg VisibleInput.status same.visible
  rw [MailboxRow.isActive, MailboxRow.isActive, status]

theorem dispatchedBefore (same : LooksSame row after) (otherSame : LooksSame other otherAfter) :
    after.dispatchedBefore otherAfter = row.dispatchedBefore other := by
  have key : ∀ {one oneAfter : MailboxRow}, LooksSame one oneAfter →
      oneAfter.dispatchKey = one.dispatchKey := by
    intro one oneAfter looks
    have priority : oneAfter.priority = one.priority := congrArg VisibleInput.priority looks.visible
    have id : oneAfter.id = one.id := congrArg VisibleInput.inputId looks.visible
    rw [MailboxRow.dispatchKey, MailboxRow.dispatchKey, MailboxRow.positionKey,
      MailboxRow.positionKey, priority, id, looks.promotedAt, looks.followUpPosition,
      looks.createdAt]
  rw [Bool.eq_iff_iff, MailboxRow.dispatchedBefore_compares, MailboxRow.dispatchedBefore_compares,
    key same, key otherSame]

end LooksSame

theorem visible_map {rows : List MailboxRow} {change : MailboxRow → MailboxRow}
    (same : ∀ row ∈ rows, LooksSame row (change row)) :
    (inDispatchOrder ((rows.map change).filter MailboxRow.isActive)).map MailboxRow.visible =
      (inDispatchOrder (rows.filter MailboxRow.isActive)).map MailboxRow.visible := by
  have active : (rows.map change).filter MailboxRow.isActive =
      (rows.filter MailboxRow.isActive).map change := by
    rw [List.filter_map]
    congr 1
    apply filter_congr
    intro row mem
    exact (same row mem).isActive
  have inRows : ∀ row ∈ rows.filter MailboxRow.isActive, LooksSame row (change row) :=
    fun row mem => same row (mem_filter.mp mem).1
  rw [active, inDispatchOrder, inOrder_map change (fun one hOne other hOther =>
    (inRows one hOne).dispatchedBefore (inRows other hOther)), List.map_map]
  apply map_congr_left
  intro row mem
  exact (inRows row (Library.mem_inOrder.mp mem)).visible

namespace SessionQueue

/-- The revision moves on, or the queue looks the same. -/
def Revises (queue after : SessionQueue) : Prop :=
  queue.queueRevision < after.queueRevision
    ∨ after.queueRevision = queue.queueRevision ∧ after.visibleQueue = queue.visibleQueue

variable {queue after : SessionQueue}

theorem Revises.refl (queue : SessionQueue) : queue.Revises queue := .inr ⟨rfl, rfl⟩

theorem Revises.bumped (moved : after.queueRevision = queue.queueRevision + 1) :
    queue.Revises after :=
  .inl (by omega)

theorem Revises.atLeast (revises : queue.Revises after) :
    queue.queueRevision ≤ after.queueRevision := by
  rcases revises with grows | ⟨same, -⟩
  · exact Nat.le_of_lt grows
  · exact Nat.le_of_eq same.symm

theorem Revises.advances (revises : queue.Revises after)
    (changed : after.visibleQueue ≠ queue.visibleQueue) :
    queue.queueRevision < after.queueRevision := by
  rcases revises with grows | ⟨-, same⟩
  · exact grows
  · exact absurd same changed

theorem resetConsuming_revises (queue : SessionQueue) (admits : MailboxRow → Bool) :
    queue.Revises (queue.resetConsuming admits) := by
  obtain ⟨same, -⟩ | ⟨_, -, reset⟩ := queue.resetConsuming_cases admits
  · rw [same]
    exact .refl _
  · rw [reset]
    exact .bumped rfl

end SessionQueue

theorem ChildSession.persistOutputs_visible {child after : ChildSession} {batch : ChildOutputBatch}
    {nowMs : Nat} (persists : child.persistOutputs batch nowMs = some after)
    (consumesNothing : batch.consumedInput = none) :
    ∃ change : MailboxRow → MailboxRow, after.mailbox = child.mailbox.map change
      ∧ ∀ row ∈ child.mailbox, LooksSame row (change row) := by
  apply persistOutputs_rows (motive := fun rows => ∃ change : MailboxRow → MailboxRow,
    rows = child.mailbox.map change ∧ ∀ row ∈ child.mailbox, LooksSame row (change row)) persists
  · intro _
    exact ⟨fun row => row, (List.map_id _).symm, fun row _ => .refl row⟩
  · intro input appended taken hInput
    rw [consumesNothing] at hInput
    cases hInput
  · rintro rows updated ⟨change, rfl, looks⟩ ⟨_, _, keeps, -, -, update⟩
    rw [updateRows] at update
    split at update
    · cases update
      refine ⟨_, List.map_map, ?_⟩
      intro row mem
      refine (looks row mem).trans ?_
      dsimp only [Function.comp_apply]
      split
      · refine ⟨rfl, ?_, rfl, rfl⟩
        rw [MailboxRow.promotedAt, MailboxRow.promotedAt, MailboxRow.change]
        cases (change row).origin with
        | none => rfl
        | some origin => exact (keeps origin).2.2.2.2.2
      · exact .refl _
    · cases update

namespace SessionQueue

variable {queue after : SessionQueue}

theorem persistOutputs_revises {batch : ChildOutputBatch} {accepted : Option AcceptedInput}
    {nowMs : Nat} (persists : queue.persistOutputs batch accepted nowMs = some after) :
    queue.Revises after := by
  obtain ⟨session, persisted, recorded, revision⟩ := persistOutputs_cases persists
  cases hInput : batch.consumedInput with
  | some =>
    left
    rw [revision, hInput, isSome_some, Bool.toNat_true]
    omega
  | none =>
    right
    refine ⟨by rw [revision, hInput, isSome_none, Bool.toNat_false, Nat.add_zero], ?_⟩
    obtain ⟨_, changed, looks⟩ := ChildSession.persistOutputs_visible persisted hInput
    have seen : (inDispatchOrder (session.mailbox.filter MailboxRow.isActive)).map
        MailboxRow.visible = queue.visibleQueue := by
      rw [changed]
      exact visible_map looks
    obtain same | ⟨input, clientInputId, -, -, -, added⟩ := recorded
    · rw [visibleQueue, activeInputs, same]
      exact seen
    · -- An accepted input is consumed from the start.
      have ended : (acceptedRow input clientInputId).isActive = false := rfl
      rw [visibleQueue, activeInputs, added, filter_append, filter_singleton, ended]
      simpa using seen

/-- Whatever is done, the revision moves on where the queue looks different. -/
theorem step_revises {operation : QueueOperation} (stepped : queue.step operation = some after) :
    queue.Revises after := by
  cases performs_of_step stepped with
  | nothing => exact .refl _
  | resets => exact queue.resetConsuming_revises _
  | freezes =>
    refine .inr ⟨rfl, visible_map fun row _ => ?_⟩
    split
    · exact ⟨rfl, rfl, rfl, rfl⟩
    · exact .refl row
  | persists _ persists => exact persistOutputs_revises persists
  | elsewhere => exact .inr ⟨rfl, rfl⟩
  | _ => exact .bumped rfl

/-- Whether an edit took effect, by its answer. -/
def takesEffect (queue : SessionQueue) : QueueOperation → Bool
  | .update inputId content expected =>
    match queue.updateQueuedInput inputId content expected with
    | .ok (_, result) => result.edited
    | .error _ => false
  | .cancel inputId expected =>
    match queue.cancelQueuedInput inputId expected with
    | .ok (_, result) => result.edited
    | .error _ => false
  | .reorder inputIds expected => (queue.reorderQueuedFollowUps inputIds expected).2.reordered
  | _ => false

end SessionQueue

/-- The revision that a client has seen as it edits the queue. -/
def QueueOperation.expected : QueueOperation → Option Int
  | .update _ _ expected | .cancel _ expected | .reorder _ expected => expected
  | _ => none

def QueueOperation.isEdit : QueueOperation → Bool
  | .update .. | .cancel .. | .reorder .. => true
  | _ => false

namespace SessionQueue

variable {queue after : SessionQueue}
variable {operation : QueueOperation}

/-- An edit has no effect, or it raises the revision. -/
theorem edit_cases (queue : SessionQueue) (edits : operation.isEdit) :
    queue.takesEffect operation = false ∧ queue.perform operation = queue
      ∨ queue.takesEffect operation ∧ queue.revisionMismatch operation.expected = false
        ∧ (queue.perform operation).queueRevision = queue.queueRevision + 1 := by
  cases operation with
  | update inputId content expected =>
    rw [takesEffect, perform]
    cases updates : queue.updateQueuedInput inputId content expected with
    | error => exact .inl ⟨rfl, rfl⟩
    | ok updated =>
      obtain ⟨after, result⟩ := updated
      obtain ⟨rfl, refused⟩ | ⟨rfl, edited, matched, -⟩ := updateQueuedInput_cases updates
      · exact .inl ⟨refused, rfl⟩
      · exact .inr ⟨edited, matched, rfl⟩
  | cancel inputId expected =>
    rw [takesEffect, perform]
    cases cancels : queue.cancelQueuedInput inputId expected with
    | error => exact .inl ⟨rfl, rfl⟩
    | ok cancelled =>
      obtain ⟨after, result⟩ := cancelled
      obtain ⟨rfl, refused, -⟩ | ⟨rfl, edited, matched, -⟩ := cancelQueuedInput_cases cancels
      · exact .inl ⟨refused, rfl⟩
      · exact .inr ⟨edited, matched, rfl⟩
  | reorder inputIds expected =>
    rw [takesEffect, perform]
    obtain ⟨same, refused, -⟩ | ⟨listed, reordered, matched, -⟩ :=
      queue.reorderQueuedFollowUps_cases inputIds expected
    · exact .inl ⟨refused, same⟩
    · refine .inr ⟨reordered, matched, ?_⟩
      rw [listed]
      rfl
  | _ => cases edits

theorem isEdit_of_takesEffect (effective : queue.takesEffect operation) : operation.isEdit := by
  cases operation with
  | update | cancel | reorder => rfl
  | _ => cases effective

theorem step_performs (stepped : queue.step operation = some after) :
    after = queue.perform operation := by
  rw [step] at stepped
  split at stepped
  · cases stepped
  · exact (Option.some.inj stepped).symm

theorem stale_edit_performs {expected : Int} (asks : operation.expected = some expected)
    (stale : expected ≠ queue.queueRevision) :
    queue.perform operation = queue ∧ queue.takesEffect operation = false := by
  have edits : operation.isEdit := by
    cases operation with
    | update | cancel | reorder => rfl
    | _ => cases asks
  obtain ⟨refused, same⟩ | ⟨-, matched, -⟩ := queue.edit_cases edits
  · exact ⟨same, refused⟩
  · rw [revisionMismatch, asks, any_some, bne_eq_false_iff_eq] at matched
    exact absurd matched stale

def revised : Revised SessionQueue QueueOperation where
  step := step
  revision := queueRevision
  accepted queue operation := if queue.takesEffect operation then operation.expected else none

theorem revised_lawful : revised.Lawful where
  grows := fun _ _ _ stepped => (step_revises stepped).atLeast
  advances := by
    intro queue operation after expected stepped accepted
    change (if queue.takesEffect operation then operation.expected else none) = some expected
      at accepted
    split at accepted
    · rename_i effective
      obtain ⟨refused, -⟩ | ⟨-, matched, moved⟩ :=
        queue.edit_cases (isEdit_of_takesEffect effective)
      · rw [refused] at effective
        cases effective
      · rw [revisionMismatch, accepted, any_some, bne_eq_false_iff_eq] at matched
        refine ⟨matched, ?_⟩
        show queue.queueRevision < after.queueRevision
        rw [step_performs stepped, moved]
        omega
    · cases accepted

/-- Edits with an expected revision are edits of the queue that had it. -/
structure OptimisticEdits (queue : SessionQueue) : Prop where
  grows : ∀ operation after, queue.step operation = some after →
    queue.queueRevision ≤ after.queueRevision
  advances : ∀ operation after, queue.step operation = some after →
    after.visibleQueue ≠ queue.visibleQueue → queue.queueRevision < after.queueRevision
  stale : ∀ operation after expected, queue.step operation = some after →
    operation.expected = some expected → expected ≠ queue.queueRevision →
    after = queue ∧ queue.takesEffect operation = false
  ineffective : ∀ operation, operation.isEdit = true → queue.takesEffect operation = false →
    queue.perform operation = queue
  once : ∀ operations, (revised.acceptedAlong queue operations).Nodup

/-- Every change of what clients see moves the revision on, so of the edits that ask for one
revision at most one takes effect, in whatever order they come. -/
theorem edits_are_optimistic (queue : SessionQueue) : OptimisticEdits queue where
  grows := fun _ _ stepped => (step_revises stepped).atLeast
  advances := fun _ _ stepped changed => (step_revises stepped).advances changed
  stale := by
    intro operation after expected stepped asks stale
    rw [step_performs stepped]
    exact stale_edit_performs asks stale
  ineffective := by
    intro operation edits refused
    obtain ⟨-, same⟩ | ⟨effective, -⟩ := queue.edit_cases edits
    · exact same
    · rw [refused] at effective
      cases effective
  once := revised_lawful.once queue

end SessionQueue

end PiRelay.Store
