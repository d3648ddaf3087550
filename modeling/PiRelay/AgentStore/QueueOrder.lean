import PiRelay.AgentStore.QueueMoves

/-! The follow-ups of a queue as a list of ids. Positions are drawn, emptied, renumbered
and left with gaps, and all the while they list the follow-ups as the list has them. -/
namespace PiRelay.Store

open AgentVocab AgentCore Session MailboxRow List Option
open Library (Machine inOrder)

/-- What becomes of the list of follow-ups. -/
inductive FollowUpEdit where
  | keep
  | append (inputId : String)
  | delete (inputId : String)
  /-- A list of other inputs is no new order. -/
  | permute (inputIds : List String)
  | clear

def FollowUpEdit.apply (edit : FollowUpEdit) (inputIds : List String) : List String :=
  match edit with
  | .keep => inputIds
  | .append inputId => inputIds ++ [inputId]
  | .delete inputId => inputIds.erase inputId
  | .permute order => if order.Perm inputIds then order else inputIds
  | .clear => []

def SessionQueue.followUpEdit (queue : SessionQueue) : QueueOperation → FollowUpEdit
  | .enqueueUserInput request context =>
    match queue.enqueueUserInput request context with
    | .error _ => .keep
    | .ok (_, result) =>
      if !result.replayed && request.priority == .followUp then .append context.inputId
      else .keep
  | .promote inputId _ routeRead =>
    match routeRead with
    | .error _ => .keep
    | .ok () => .delete inputId
  | .cancel inputId expected => if queue.revisionMismatch expected then .keep else .delete inputId
  | .reorder inputIds expected =>
    if queue.revisionMismatch expected then .keep else .permute inputIds
  | .persistOutputs batch accepted nowMs =>
    match queue.persistOutputs batch accepted nowMs, batch.consumedInput with
    | some _, some input => .delete input.id
    | _, _ => .keep
  | .cancelActiveInputs => .clear
  | _ => .keep

/-- The follow-ups of a mailbox are in place, and these are their ids. -/
structure OrderedAs (rows : List MailboxRow) (inputIds : List String) : Prop where
  ids : queuedFollowUpIds rows = inputIds
  inPlace : InPlace (queuedFollowUps rows)

namespace OrderedAs

variable {rows : List MailboxRow} {inputIds : List String}

theorem not_mem_of_none (ordered : OrderedAs rows inputIds) {inputId : String}
    (none : rows.any (ChildSession.isQueuedFollowUp inputId) = false) : inputId ∉ inputIds := by
  rw [← ordered.ids]
  intro mem
  obtain ⟨row, inOrder, named⟩ := mem_map.mp mem
  obtain ⟨inRows, followUp⟩ := mem_queuedFollowUps.mp inOrder
  rw [isQueuedFollowUp_iff] at followUp
  rw [List.any_eq_false] at none
  exact none row inRows (by simp [ChildSession.isQueuedFollowUp, named, followUp])

variable {change : MailboxRow → MailboxRow}

section

variable (ordered : OrderedAs rows inputIds)
include ordered

theorem keep (id : ∀ row ∈ rows, (change row).id = row.id)
    (followUp : ∀ row ∈ rows, (change row).isQueuedFollowUp = row.isQueuedFollowUp)
    (position : ∀ row ∈ rows, row.isQueuedFollowUp →
      (change row).followUpPosition = row.followUpPosition) :
    OrderedAs (rows.map change) inputIds := by
  have inRows : ∀ row ∈ queuedFollowUps rows, row ∈ rows ∧ row.isQueuedFollowUp :=
    fun row mem => mem_queuedFollowUps.mp mem
  obtain ⟨same, inPlace⟩ := queuedFollowUps_map ordered.inPlace change isQueuedFollowUp
    (fun row mem => by rw [followUp row mem, and_self]) position
  refine ⟨?_, inPlace⟩
  rw [queuedFollowUpIds, same, filter_eq_self.mpr fun row mem => (inRows row mem).2,
    List.map_map, ← ordered.ids]
  exact map_congr_left fun row mem => id row (inRows row mem).1

theorem delete (distinct : (rows.map MailboxRow.id).Nodup) (inputId : String)
    (id : ∀ row ∈ rows, (change row).id = row.id)
    (ended : ∀ row ∈ rows, row.id = inputId → (change row).isQueuedFollowUp = false)
    (others : ∀ row ∈ rows, row.id ≠ inputId → change row = row) :
    OrderedAs (rows.map change) (inputIds.erase inputId) := by
  obtain ⟨same, inPlace⟩ := queuedFollowUps_map ordered.inPlace change
    (fun row => row.id != inputId)
    (by
      intro row mem
      by_cases named : row.id = inputId
      · simp [ended row mem named, named]
      · simp [others row mem named, named])
    (by
      intro row mem stays
      rw [others row mem (by simpa using stays)])
  refine ⟨?_, inPlace⟩
  have distinctIds : inputIds.Nodup := by
    rw [← ordered.ids]
    exact ((queuedFollowUps_perm rows).map _).nodup_iff.mpr
      (distinct.sublist (filter_sublist.map _))
  have unchanged : ((queuedFollowUps rows).filter fun row => row.id != inputId).map
      (MailboxRow.id ∘ change) =
      ((queuedFollowUps rows).filter fun row => row.id != inputId).map MailboxRow.id := by
    apply map_congr_left
    intro row mem
    exact id row (mem_queuedFollowUps.mp (mem_filter.mp mem).1).1
  rw [queuedFollowUpIds, same, List.map_map, unchanged, distinctIds.erase_eq_filter, ← ordered.ids,
    queuedFollowUpIds, List.filter_map]
  rfl

theorem delete_queued (distinct : (rows.map MailboxRow.id).Nodup) (inputId : String)
    (id : ∀ row, (change row).id = row.id) (ended : ∀ row, (change row).isQueuedFollowUp = false) :
    OrderedAs (rows.map fun row => if ChildSession.isQueuedFollowUp inputId row then change row
      else row) (inputIds.erase inputId) := by
  apply ordered.delete distinct inputId
  · intro row _
    split
    · exact id row
    · rfl
  · intro row _ named
    split
    · exact ended row
    · rename_i refused
      rw [ChildSession.isQueuedFollowUp, named, beq_self_eq_true, Bool.true_and] at refused
      exact Bool.eq_false_of_not_eq_true refused
  · intro row _ different
    rw [if_neg]
    intro admitted
    simp only [ChildSession.isQueuedFollowUp, Bool.and_eq_true, beq_iff_eq] at admitted
    exact different admitted.1.1

end

theorem renumber (distinct : (rows.map MailboxRow.id).Nodup)
    (ids : queuedFollowUpIds rows = inputIds) : OrderedAs (renumberFollowUps rows) inputIds := by
  obtain ⟨same, inPlace⟩ := queuedFollowUps_renumber distinct
  exact ⟨same.trans ids, inPlace⟩

theorem append_other (ordered : OrderedAs rows inputIds) {row : MailboxRow}
    (other : row.isQueuedFollowUp = false) : OrderedAs (rows ++ [row]) inputIds := by
  have same := queuedFollowUps_append_other rows other
  constructor
  · rw [queuedFollowUpIds, same]
    exact ordered.ids
  · rw [same]
    exact ordered.inPlace

theorem updates (ordered : OrderedAs rows inputIds) {updated : List MailboxRow}
    {admits : MailboxRow → Bool} (update : updateRows rows admits change = some updated)
    (id : ∀ row, (change row).id = row.id)
    (followUp : ∀ row, admits row → (change row).isQueuedFollowUp = row.isQueuedFollowUp)
    (position : ∀ row, (change row).followUpPosition = row.followUpPosition) :
    OrderedAs updated inputIds := by
  rw [updateRows] at update
  split at update
  · cases update
    apply ordered.keep
    · intro row _
      split
      · exact id row
      · rfl
    · intro row _
      split
      · exact followUp row (by assumption)
      · rfl
    · intro row _ _
      split
      · exact position row
      · rfl
  · cases update

end OrderedAs

theorem lt_foldl_next (positions : List Nat) (start : Nat) :
    start ≤ positions.foldl (fun last position => max last (position + 1)) start
      ∧ ∀ position ∈ positions,
        position < positions.foldl (fun last position => max last (position + 1)) start := by
  induction positions generalizing start with
  | nil => exact ⟨Nat.le_refl _, fun _ mem => absurd mem not_mem_nil⟩
  | cons position _ ih =>
    obtain ⟨_, others⟩ := ih (max start (position + 1))
    rw [foldl_cons]
    refine ⟨by omega, ?_⟩
    intro other mem
    rcases mem_cons.mp mem with rfl | inRest
    · omega
    · exact others other inRest

namespace ChildSession

variable {child after : ChildSession} {inputIds : List String} {inputId : String}

theorem settled_isQueuedFollowUp {row : MailboxRow} {edit : InputOrigin → InputOrigin}
    {phase : SubagentControlPhase} (admitted : row.isControlIn inputId phase) :
    (row.change row.settledStatus edit).isQueuedFollowUp = row.isQueuedFollowUp := by
  simp only [MailboxRow.isControlIn, Bool.and_eq_true, beq_iff_eq] at admitted
  have noFollowUp : (InputPriority.steer == InputPriority.followUp) = false := rfl
  simp [MailboxRow.isQueuedFollowUp, MailboxRow.change, admitted.1.1.2, noFollowUp]

variable {before after : List MailboxRow}

theorem settles_ordered (ordered : OrderedAs before inputIds)
    (settles : Settles inputId before after) : OrderedAs after inputIds := by
  obtain ⟨_, _, -, -, update⟩ := settles
  exact ordered.updates update (fun _ => rfl) (fun row admitted => settled_isQueuedFollowUp admitted)
    fun _ => rfl

theorem applies_ordered (ordered : OrderedAs before inputIds) (applies : Applies before after) :
    OrderedAs after inputIds := by
  obtain ⟨_, _, -, -, -, update⟩ := applies
  exact ordered.updates update (fun _ => rfl) (fun _ _ => rfl) fun _ => rfl

variable {after : ChildSession}

theorem applySubagentControlInterruptAtBoundary_ordered {result : SubagentBoundaryInterruptResult}
    (ordered : OrderedAs child.mailbox inputIds)
    (applies : child.applySubagentControlInterruptAtBoundary inputId = .ok (result, after)) :
    OrderedAs after.mailbox inputIds := by
  obtain same | settles | applied := applySubagentControlInterruptAtBoundary_mailbox applies
  · rw [same]
    exact ordered
  · exact settles_ordered ordered settles
  · exact applies_ordered ordered applied

theorem consumeInput_ordered {input : TakenInput} (distinct : (child.mailbox.map MailboxRow.id).Nodup)
    (ordered : OrderedAs child.mailbox inputIds)
    (consumed : child.consumeInput input = some after) :
    OrderedAs after.mailbox (inputIds.erase input.id) := by
  rw [consumeInput, updateRows] at consumed
  obtain ⟨_, updated, rfl⟩ := map_eq_some_iff.mp consumed
  split at updated
  · rename_i reached
    cases updated
    obtain ⟨found, inMailbox, isConsumed⟩ := List.any_eq_true.mp reached
    have foundNamed : found.id = input.id := by
      rw [consumes, Bool.and_eq_true, beq_iff_eq] at isConsumed
      exact isConsumed.1
    apply ordered.delete distinct input.id
    · intro row _
      split <;> rfl
    · intro row mem named
      obtain rfl := eq_of_id_eq distinct mem inMailbox (named.trans foundNamed.symm)
      rw [if_pos isConsumed]
      rfl
    · intro row _ different
      rw [if_neg]
      intro admitted
      rw [consumes, Bool.and_eq_true, beq_iff_eq] at admitted
      exact different admitted.1
  · cases updated

theorem persistOutputs_ordered {batch : ChildOutputBatch} {nowMs : Nat}
    (distinct : (child.mailbox.map MailboxRow.id).Nodup) (ordered : OrderedAs child.mailbox inputIds)
    (persists : child.persistOutputs batch nowMs = some after) :
    OrderedAs after.mailbox
      (match batch.consumedInput with
        | none => inputIds
        | some input => inputIds.erase input.id) := by
  apply persistOutputs_rows (motive := fun rows => OrderedAs rows _) persists
  · intro nothing
    rw [nothing]
    exact ordered
  · intro input appended taken hInput same consumes
    rw [hInput]
    rw [← same] at distinct ordered
    exact consumeInput_ordered distinct ordered consumes
  · exact fun _ _ first applied => applies_ordered first applied

end ChildSession

namespace OrderedAs

variable {rows : List MailboxRow} {inputIds : List String}

theorem not_mem_of_other (ordered : OrderedAs rows inputIds)
    (distinct : (rows.map MailboxRow.id).Nodup) {row : MailboxRow} (mem : row ∈ rows)
    (other : row.isQueuedFollowUp = false) : row.id ∉ inputIds := by
  rw [← ordered.ids]
  intro listed
  obtain ⟨_, inOrder, named⟩ := mem_map.mp listed
  obtain ⟨inRows, followUp⟩ := mem_queuedFollowUps.mp inOrder
  obtain rfl := eq_of_id_eq distinct inRows mem named
  rw [other] at followUp
  cases followUp

end OrderedAs

/-- No statement of the repository sets a row to consuming. -/
def NoConsuming (queue : SessionQueue) : Prop :=
  ∀ row ∈ queue.mailbox, row.status ≠ .consuming

namespace SessionQueue

variable {queue after : SessionQueue} {inputIds : List String}

theorem NoConsuming.step {operation : QueueOperation} (noConsuming : NoConsuming queue)
    (stepped : queue.step operation = some after) : NoConsuming after := by
  obtain ⟨moved, moves, recorded⟩ := step_proceeds stepped
  have inMoved : ∀ row ∈ moved, row.status ≠ .consuming := by
    intro row mem consuming
    obtain ⟨prior, inMailbox, move⟩ := moves.predecessor mem
    exact noConsuming prior inMailbox (move.consuming consuming).1
  rcases recorded with same | ⟨new, added, isNew⟩
  · rw [NoConsuming, same]
    exact inMoved
  · intro row mem
    rw [added] at mem
    rcases Library.mem_concat.mp mem with wasThere | rfl
    · exact inMoved row wasThere
    · exact isNew.notConsuming

theorem enqueueUserInput_ordered {request : EnqueueUserInput} {context : ControlContext}
    (ordered : OrderedAs queue.mailbox inputIds) :
    OrderedAs (queue.perform (.enqueueUserInput request context)).mailbox
      ((queue.followUpEdit (.enqueueUserInput request context)).apply inputIds) := by
  rw [perform, followUpEdit]
  cases enqueues : queue.enqueueUserInput request context with
  | error => exact ordered
  | ok enqueued =>
    obtain ⟨_, _⟩ := enqueued
    obtain ⟨rfl, replayed⟩ | ⟨rfl, added, -⟩ := enqueueUserInput_cases enqueues
    · simp only [replayed]
      exact ordered
    · cases hPriority : request.priority with
      | steer =>
        have other : (queue.userInputRow request context).isQueuedFollowUp = false := by
          rw [isQueuedFollowUp, userInputRow, hPriority]
          rfl
        have steer : (InputPriority.steer == InputPriority.followUp) = false := rfl
        simp only [steer, Bool.and_false]
        exact ordered.append_other other
      | followUp =>
        have isFollowUp : (queue.userInputRow request context).isQueuedFollowUp := by
          rw [isQueuedFollowUp, userInputRow, hPriority]
          rfl
        have placed : (queue.userInputRow request context).followUpPosition =
            some queue.nextFollowUpPosition := by
          rw [userInputRow, hPriority]
        obtain ⟨same, inPlace⟩ := queuedFollowUps_concat ordered.inPlace isFollowUp placed (by
            intro other mem before hBefore
            obtain ⟨inMailbox, queued⟩ := mem_queuedFollowUps.mp mem
            exact (lt_foldl_next _ 0).2 before (mem_filterMap.mpr
              ⟨other, mem_filter.mpr ⟨inMailbox, queued⟩, hBefore⟩))
        simp only [added]
        refine ⟨?_, inPlace⟩
        have listed : queuedFollowUpIds (queue.mailbox ++ [queue.userInputRow request context]) =
            queuedFollowUpIds queue.mailbox ++ [context.inputId] := by
          rw [queuedFollowUpIds, same, map_append]
          rfl
        exact listed.trans (by rw [ordered.ids]; rfl)

theorem afterControl_ordered {request : ScopedSubagentControlRequest} {context : ControlContext}
    (ordered : OrderedAs queue.mailbox inputIds) :
    OrderedAs (queue.afterControl (queue.enqueueScopedSubagentControl request context)).mailbox
      inputIds := by
  rcases queue.afterControl_cases request context with same | ⟨added, -⟩
  · rw [same]
    exact ordered
  · rw [added]
    exact ordered.append_other rfl

variable {inputId : String} {expected : Option Int}

theorem promoteQueuedInput_ordered {promotedAt : Nat} {routeRead : Except String Unit}
    (distinct : (queue.mailbox.map MailboxRow.id).Nodup)
    (ordered : OrderedAs queue.mailbox inputIds) :
    OrderedAs (queue.perform (.promote inputId promotedAt routeRead)).mailbox
      ((queue.followUpEdit (.promote inputId promotedAt routeRead)).apply inputIds) := by
  rw [perform, promoteQueuedInput.eq_def]
  cases routeRead with
  | error => exact ordered
  | ok =>
    show OrderedAs _ (inputIds.erase inputId)
    by_cases waits : queue.mailbox.any (ChildSession.isQueuedFollowUp inputId)
    · rw [if_pos waits]
      let promoted := (queue.session.promoteQueuedInput inputId promotedAt).mailbox
      have deleted : OrderedAs promoted (inputIds.erase inputId) :=
        ordered.delete_queued distinct inputId (fun _ => rfl) fun _ => Bool.and_false _
      have distinctPromoted : (promoted.map MailboxRow.id).Nodup := by
        rw [(queue.session.promoteQueuedInput_moves inputId promotedAt).ids]
        exact distinct
      have renumbered := OrderedAs.renumber distinctPromoted deleted.ids
      exact renumbered
    · have missing := ordered.not_mem_of_none (Bool.eq_false_of_not_eq_true waits)
      rw [if_neg waits, erase_of_not_mem missing]
      cases queue.findInput inputId with
      | none | some => exact ordered

theorem cancelQueuedInput_error {error : QueueError}
    (fails : queue.cancelQueuedInput inputId expected = .error error) :
    queue.mailbox.any (ChildSession.isQueuedFollowUp inputId) = false := by
  rw [cancelQueuedInput] at fails
  split at fails
  · rename_i checked
    rw [checkEdit] at checked
    split at checked
    · cases checked
    · split at checked
      · rename_i missing
        rw [findInput, find?_eq_none] at missing
        rw [List.any_eq_false]
        intro row mem admitted
        simp only [ChildSession.isQueuedFollowUp, Bool.and_eq_true] at admitted
        exact missing row mem admitted.1.1
      · split at checked <;> cases checked
  · cases fails
  · cases fails

theorem cancelQueuedInput_ordered (distinct : (queue.mailbox.map MailboxRow.id).Nodup)
    (ordered : OrderedAs queue.mailbox inputIds) :
    OrderedAs (queue.perform (.cancel inputId expected)).mailbox
      ((queue.followUpEdit (.cancel inputId expected)).apply inputIds) := by
  rw [perform, followUpEdit]
  cases cancels : queue.cancelQueuedInput inputId expected with
  | error =>
    have missing := ordered.not_mem_of_none (cancelQueuedInput_error cancels)
    split
    · exact ordered
    · rw [FollowUpEdit.apply, erase_of_not_mem missing]
      exact ordered
  | ok cancelled =>
    obtain ⟨_, _⟩ := cancelled
    obtain ⟨rfl, -, mismatch | ⟨row, mem, rfl, other⟩⟩ | ⟨rfl, -, matched, waits⟩ :=
      cancelQueuedInput_cases cancels
    · rw [if_pos mismatch]
      exact ordered
    · split
      · exact ordered
      · have missing := ordered.not_mem_of_other distinct mem other
        rw [FollowUpEdit.apply, erase_of_not_mem missing]
        exact ordered
    · rw [if_neg (Bool.eq_false_iff.mp matched)]
      let cancelled := (queue.session.cancelQueuedInput inputId).mailbox
      have deleted : OrderedAs cancelled (inputIds.erase inputId) :=
        ordered.delete_queued distinct inputId (fun _ => rfl) fun _ => rfl
      have distinctCancelled : (cancelled.map MailboxRow.id).Nodup := by
        rw [(queue.session.cancelQueuedInput_moves inputId).ids]
        exact distinct
      have renumbered := OrderedAs.renumber distinctCancelled deleted.ids
      exact renumbered

theorem reorderQueuedFollowUps_ordered {order : List String}
    (distinct : (queue.mailbox.map MailboxRow.id).Nodup)
    (ordered : OrderedAs queue.mailbox inputIds) :
    OrderedAs (queue.perform (.reorder order expected)).mailbox
      ((queue.followUpEdit (.reorder order expected)).apply inputIds) := by
  rw [perform, followUpEdit]
  obtain ⟨same, -, why⟩ | ⟨reordered, -, matched, perm⟩ :=
    queue.reorderQueuedFollowUps_cases order expected
  · rw [same]
    by_cases mismatch : queue.revisionMismatch expected
    · rw [if_pos mismatch]
      exact ordered
    · rw [if_neg mismatch, FollowUpEdit.apply]
      rw [ordered.ids] at why
      obtain stale | unchanged | other := why
      · exact absurd stale mismatch
      · rw [← unchanged, ite_self]
        exact ordered
      · rw [if_neg other]
        exact ordered
  · rw [ordered.ids] at perm
    rw [if_neg (Bool.eq_false_iff.mp matched), FollowUpEdit.apply, if_pos perm, reordered]
    rw [← ordered.ids] at perm
    obtain ⟨listed, inPlace⟩ := queuedFollowUps_place distinct perm
    exact ⟨listed, inPlace⟩

theorem resetConsuming_ordered (noConsuming : NoConsuming queue) {admits : MailboxRow → Bool}
    (only : ∀ row, admits row → row.status = .consuming)
    (ordered : OrderedAs queue.mailbox inputIds) :
    OrderedAs (queue.resetConsuming admits).mailbox inputIds := by
  obtain ⟨same, -⟩ | ⟨_, updated, -⟩ := queue.resetConsuming_cases admits
  · rw [same]
    exact ordered
  · rw [updateRows] at updated
    split at updated
    · rename_i reached
      obtain ⟨row, mem, admitted⟩ := List.any_eq_true.mp reached
      exact absurd (only row admitted) (noConsuming row mem)
    · cases updated

theorem cancelActiveInputs_ordered (queue : SessionQueue) :
    OrderedAs queue.cancelActiveInputs.mailbox [] := by
  have noFollowUps : ∀ rows : List MailboxRow, (∀ row ∈ rows, row.isActive = false) →
      OrderedAs rows [] := by
    intro rows ended
    have nothing : rows.filter isQueuedFollowUp = [] := by
      rw [filter_eq_nil_iff]
      intro row mem followUp
      rw [isQueuedFollowUp_iff] at followUp
      have isEnded := ended row mem
      simp [isActive, followUp] at isEnded
    have none : queuedFollowUps rows = [] := by
      rw [queuedFollowUps, nothing]
      rfl
    constructor
    · rw [queuedFollowUpIds, none, map_nil]
    · rw [none]
      exact ⟨fun _ mem => absurd mem not_mem_nil, .nil⟩
  rw [cancelActiveInputs]
  split
  · apply noFollowUps
    intro row mem
    obtain ⟨-, -, rfl⟩ := mem_map.mp mem
    split
    · rfl
    · rename_i ended
      exact Bool.eq_false_of_not_eq_true ended
  · rename_i noneActive
    apply noFollowUps
    intro row mem
    simp only [List.any_eq_true, not_exists, not_and, Bool.not_eq_true] at noneActive
    exact noneActive row mem

theorem persistOutputs_ordered {batch : ChildOutputBatch} {accepted : Option AcceptedInput}
    {nowMs : Nat} (distinct : (queue.mailbox.map MailboxRow.id).Nodup)
    (ordered : OrderedAs queue.mailbox inputIds) :
    OrderedAs (queue.perform (.persistOutputs batch accepted nowMs)).mailbox
      ((queue.followUpEdit (.persistOutputs batch accepted nowMs)).apply inputIds) := by
  rw [perform, followUpEdit]
  cases persists : queue.persistOutputs batch accepted nowMs with
  | none => exact ordered
  | some after =>
    obtain ⟨session, persisted, recorded, -⟩ := persistOutputs_cases persists
    have sessionOrdered := ChildSession.persistOutputs_ordered distinct ordered persisted
    have afterOrdered : ∀ listed, OrderedAs session.mailbox listed →
        OrderedAs after.mailbox listed := by
      intro listed inSession
      obtain same | ⟨_, _, -, -, -, added⟩ := recorded
      · rw [same]
        exact inSession
      · rw [added]
        exact inSession.append_other rfl
    cases hInput : batch.consumedInput with
    | none | some =>
      rw [hInput] at sessionOrdered
      exact afterOrdered _ sessionOrdered

/-- An operation edits the list of the follow-ups. -/
theorem step_ordered {operation : QueueOperation} (sound : SoundQueue queue)
    (noConsuming : NoConsuming queue) (ordered : OrderedAs queue.mailbox inputIds)
    (stepped : queue.step operation = some after) :
    OrderedAs after.mailbox ((queue.followUpEdit operation).apply inputIds) := by
  rw [step] at stepped
  split at stepped
  · cases stepped
  cases stepped
  cases operation with
  | enqueueUserInput => exact enqueueUserInput_ordered ordered
  | enqueueScopedSubagentSteer
  | enqueueScopedSubagentInterrupt => exact afterControl_ordered ordered
  | enqueueDelegationObservation observation clientInputId context =>
    rw [perform]
    cases enqueues : queue.enqueueDelegationObservation observation clientInputId context with
    | error => exact ordered
    | ok =>
      obtain ⟨rfl, -⟩ | ⟨rfl, -⟩ := enqueueDelegationObservation_cases enqueues
      · exact ordered
      · exact ordered.append_other rfl
  | promote => exact promoteQueuedInput_ordered sound.ids ordered
  | update inputId content expected =>
    rw [perform]
    cases updates : queue.updateQueuedInput inputId content expected with
    | error => exact ordered
    | ok updated =>
      obtain ⟨after, result⟩ := updated
      obtain ⟨rfl, -⟩ | ⟨rfl, -⟩ := updateQueuedInput_cases updates
      · exact ordered
      · apply ordered.keep
        · intro row _
          split <;> rfl
        · intro row _
          split <;> rfl
        · intro row _ _
          split <;> rfl
  | cancel => exact cancelQueuedInput_ordered sound.ids ordered
  | reorder => exact reorderQueuedFollowUps_ordered sound.ids ordered
  | resetAbandonedConsumingInputs =>
    exact resetConsuming_ordered noConsuming (fun row admitted => by simpa using admitted) ordered
  | resetConsumingInput =>
    rw [perform, resetConsumingInput]
    split
    · exact ordered
    · refine resetConsuming_ordered noConsuming (fun row admitted => ?_) ordered
      simp only [Bool.and_eq_true, beq_iff_eq] at admitted
      exact admitted.1.2
  | freezeLegacyRoutes =>
    apply ordered.keep
    · intro row _
      split <;> rfl
    · intro row _
      split <;> rfl
    · intro row _ _
      split <;> rfl
  | markSubagentControlReady inputId =>
    rw [perform, markSubagentControlReady]
    cases marks : queue.session.markSubagentControlReady inputId with
    | error => exact ordered
    | ok =>
      exact ChildSession.settles_ordered ordered (ChildSession.markSubagentControlReady_settles marks)
  | skipStaleSubagentControlInterrupt inputId =>
    rw [perform, skipStaleSubagentControlInterrupt]
    cases settles : queue.session.skipStaleSubagentControlInterrupt inputId with
    | error => exact ordered
    | ok =>
      exact ChildSession.settles_ordered ordered (ChildSession.settleStaleSubagentControl_settles settles)
  | applySubagentControlInterruptAtBoundary inputId =>
    rw [perform, applySubagentControlInterruptAtBoundary]
    cases applies : queue.session.applySubagentControlInterruptAtBoundary inputId with
    | error => exact ordered
    | ok applied =>
      obtain ⟨result, _⟩ := applied
      have applied := ChildSession.applySubagentControlInterruptAtBoundary_ordered ordered applies
      cases result with
      | notAtBoundary => exact ordered
      | applied | generationAdvanced => exact applied
  | cancelActiveInputs => exact queue.cancelActiveInputs_ordered
  | persistOutputs => exact persistOutputs_ordered sound.ids ordered
  | elsewhere => exact ordered

end SessionQueue

/-- What an operation may end a row with: consumption, the settling of an interrupt, or a
cancellation. -/
def QueueOperation.Ends (operation : QueueOperation) (row : MailboxRow) (status : MailboxStatus) :
    Prop :=
  match operation with
  | .persistOutputs batch _ _ =>
    status = .consumed ∧ batch.consumedInput.map TakenInput.id = some row.id
  | .markSubagentControlReady inputId | .skipStaleSubagentControlInterrupt inputId
  | .applySubagentControlInterruptAtBoundary inputId =>
    status = .consumed ∧ row.id = inputId ∧ row.controlKind = some .interrupt
  | .cancel inputId _ => status = .cancelled ∧ row.id = inputId
  | .cancelActiveInputs => status = .cancelled
  | _ => False

/-- Queued rows stay queued, but for those that end as they may. -/
def Waits (ends : MailboxRow → MailboxStatus → Prop) (before after : List MailboxRow) : Prop :=
  ∀ row ∈ before, row.status = .queued →
    ∃ now ∈ after, now.id = row.id ∧ (now.status = .queued ∨ ends row now.status)

namespace Waits

variable {ends : MailboxRow → MailboxStatus → Prop} {before after rows updated : List MailboxRow}
  {admits : MailboxRow → Bool} {change : MailboxRow → MailboxRow}

theorem refl (ends : MailboxRow → MailboxStatus → Prop) (rows : List MailboxRow) :
    Waits ends rows rows :=
  fun row mem queued => ⟨row, mem, rfl, .inl queued⟩

theorem of_admitted (id : ∀ row, (change row).id = row.id)
    (ended : ∀ row, row.status = .queued → admits row →
      (change row).status = .queued ∨ ends row (change row).status) :
    Waits ends rows (rows.map fun row => if admits row then change row else row) := by
  intro row mem queued
  refine ⟨_, mem_map_of_mem mem, ?_⟩
  split
  · exact ⟨id row, ended row queued (by assumption)⟩
  · exact ⟨rfl, .inl queued⟩

theorem updates (update : updateRows rows admits change = some updated)
    (id : ∀ row, (change row).id = row.id) (ended : ∀ row, row.status = .queued → admits row →
      (change row).status = .queued ∨ ends row (change row).status) : Waits ends rows updated := by
  rw [updateRows] at update
  split at update
  · cases update
    exact of_admitted id ended
  · cases update

section

variable (waits : Waits ends before rows)
include waits

theorem keeping (id : ∀ row, (change row).id = row.id)
    (status : ∀ row, (change row).status = row.status) : Waits ends before (rows.map change) := by
  intro row mem queued
  obtain ⟨now, inRows, named, _⟩ := waits row mem queued
  exact ⟨change now, mem_map_of_mem inRows, (id now).trans named, by rwa [status now]⟩

theorem concat (row : MailboxRow) : Waits ends before (rows ++ [row]) := by
  intro prior mem queued
  obtain ⟨now, inRows, rest⟩ := waits prior mem queued
  exact ⟨now, mem_append_left _ inRows, rest⟩

theorem number (admits : String × Nat → MailboxRow → Bool) (inputIds : List String) :
    Waits ends before (numberRows admits inputIds rows) := by
  rw [numberRows_eq]
  apply waits.keeping
  · exact number_id admits inputIds.zipIdx
  · intro row
    exact number_keeps (motive := fun placed => placed.status = row.status) rfl
      (fun _ _ same => same) _

end

end Waits

namespace ChildSession

variable {child after : ChildSession} {inputId : String}

theorem settles_waits {before after : List MailboxRow} (settles : Settles inputId before after) :
    Waits (fun row status =>
      status = .consumed ∧ row.id = inputId ∧ row.controlKind = some .interrupt) before after := by
  obtain ⟨_, _, -, -, update⟩ := settles
  apply Waits.updates update
  · exact fun _ => rfl
  · intro row queued admitted
    by_cases interrupts : row.controlKind = some .interrupt
    · exact .inr ⟨by simp [change, settledStatus, interrupts],
        row.isControlIn_id admitted, interrupts⟩
    · exact .inl (by simp [change, settledStatus, interrupts, queued])

theorem applies_waits {ends : MailboxRow → MailboxStatus → Prop} {before rows updated : List MailboxRow}
    (waits : Waits ends before rows) (applies : Applies rows updated) :
    Waits ends before updated := by
  obtain ⟨_, _, -, -, -, update⟩ := applies
  rw [updateRows] at update
  split at update
  · cases update
    apply waits.keeping
    · intro row
      split <;> rfl
    · intro row
      split <;> rfl
  · cases update

theorem applySubagentControlInterruptAtBoundary_waits {result : SubagentBoundaryInterruptResult}
    (applies : child.applySubagentControlInterruptAtBoundary inputId = .ok (result, after)) :
    Waits (QueueOperation.applySubagentControlInterruptAtBoundary inputId).Ends child.mailbox
      after.mailbox := by
  obtain same | settles | applied := applySubagentControlInterruptAtBoundary_mailbox applies
  · rw [same]
    exact .refl _ _
  · exact settles_waits settles
  · exact applies_waits (.refl _ _) applied

theorem persistOutputs_waits {batch : ChildOutputBatch} {nowMs : Nat}
    (accepted : Option AcceptedInput) (persists : child.persistOutputs batch nowMs = some after) :
    Waits (QueueOperation.persistOutputs batch accepted nowMs).Ends child.mailbox after.mailbox := by
  apply persistOutputs_rows (motive := Waits _ child.mailbox) persists
  · exact fun _ => .refl _ _
  · intro input appended taken hInput same consumes
    obtain ⟨_, update, rfl⟩ := map_eq_some_iff.mp consumes
    rw [← same]
    apply Waits.updates update
    · exact fun _ => rfl
    · intro row _ admitted
      rw [ChildSession.consumes, Bool.and_eq_true, beq_iff_eq] at admitted
      exact .inr ⟨rfl, by rw [hInput, admitted.1]; rfl⟩
  · exact fun _ _ first applied => applies_waits first applied

end ChildSession

namespace SessionQueue

variable {queue after : SessionQueue}

theorem resetConsuming_waits (ends : MailboxRow → MailboxStatus → Prop)
    (admits : MailboxRow → Bool) :
    Waits ends queue.mailbox (queue.resetConsuming admits).mailbox := by
  obtain ⟨same, -⟩ | ⟨rows, updated, reset⟩ := queue.resetConsuming_cases admits
  · rw [same]
    exact .refl _ _
  · rw [reset]
    have requeued : Waits ends queue.mailbox rows :=
      .updates updated (fun _ => rfl) fun _ _ _ => .inl rfl
    exact requeued.number _ _

/-- Whatever is done, a queued input ends only by being consumed or cancelled. -/
theorem step_waits {operation : QueueOperation} (stepped : queue.step operation = some after) :
    Waits operation.Ends queue.mailbox after.mailbox := by
  cases performs_of_step stepped with
  | nothing => exact .refl _ _
  | adds => exact (Waits.refl _ _).concat _
  | promotes =>
    apply Waits.number
    exact .of_admitted (fun _ => rfl) fun _ queued _ => .inl queued
  | edits | freezes => exact .of_admitted (fun _ => rfl) fun _ queued _ => .inl queued
  | cancels =>
    apply Waits.number
    refine .of_admitted (fun _ => rfl) fun row _ admitted => .inr ⟨rfl, ?_⟩
    simp only [ChildSession.isQueuedFollowUp, Bool.and_eq_true, beq_iff_eq] at admitted
    exact admitted.1.1
  | reorders => exact (Waits.refl _ _).number _ _
  | resets => exact resetConsuming_waits _ _
  | marks settles | skips settles => exact ChildSession.settles_waits settles
  | applies applies => exact ChildSession.applySubagentControlInterruptAtBoundary_waits applies
  | cancelsActive => exact .of_admitted (fun _ => rfl) fun _ _ _ => .inr rfl
  | @persists batch accepted nowMs _ _ persists =>
    obtain ⟨_, persisted, recorded, -⟩ := persistOutputs_cases persists
    have waits := ChildSession.persistOutputs_waits accepted persisted
    obtain same | ⟨_, _, -, -, -, added⟩ := recorded
    · rw [same]
      exact waits
    · rw [added]
      exact waits.concat _
  | elsewhere => exact .refl _ _

/-- The queue of a session whose follow-ups, if there are any, are in place. -/
structure FollowUpStart (queue : SessionQueue) : Prop where
  sound : SoundQueue queue
  noConsuming : NoConsuming queue
  inPlace : InPlace (queuedFollowUps queue.mailbox)

def followUpQueues : Machine SessionQueue QueueOperation := .ofSteps FollowUpStart step

/-- The list after operations, each of them done to the queue that the ones before it left. -/
def followUpList (queue : SessionQueue) (inputIds : List String) :
    List QueueOperation → List String
  | [] => inputIds
  | operation :: rest =>
    (queue.perform operation).followUpList ((queue.followUpEdit operation).apply inputIds) rest

theorem FollowUpStart.step {operation : QueueOperation} (start : FollowUpStart queue)
    (stepped : queue.step operation = some after) : FollowUpStart after where
  sound := start.sound.proceeds (step_proceeds stepped)
  noConsuming := NoConsuming.step start.noConsuming stepped
  inPlace := (step_ordered start.sound start.noConsuming ⟨rfl, start.inPlace⟩ stepped).inPlace

theorem FollowUpStart.of_reaches (reaches : followUpQueues.Reaches queue) : FollowUpStart queue := by
  apply reaches.invariant
  · exact fun _ initially => initially
  · intro queue operation after _ start stepped
    exact start.step stepped

/-- Whatever is done, the follow-ups are the list that the operations make of theirs. -/
theorem FollowUpStart.run {operations : List QueueOperation} {later : SessionQueue}
    (start : FollowUpStart queue) (ran : operations.foldlM SessionQueue.step queue = some later) :
    queuedFollowUpIds later.mailbox =
      queue.followUpList (queuedFollowUpIds queue.mailbox) operations := by
  induction operations generalizing queue with
  | nil =>
    cases ran
    rfl
  | cons operation _ ih =>
    obtain ⟨after, stepped, ran⟩ := bind_eq_some_iff.mp ran
    have ordered := step_ordered start.sound start.noConsuming ⟨rfl, start.inPlace⟩ stepped
    have performed : after = queue.perform operation := by
      rw [SessionQueue.step] at stepped
      split at stepped
      · cases stepped
      · exact (Option.some.inj stepped).symm
    rw [ih (start.step stepped) ran, ordered.ids, followUpList, performed]

theorem activeInputs_followUps (distinct : (queue.mailbox.map MailboxRow.id).Nodup) :
    queue.activeInputs.filter MailboxRow.isQueuedFollowUp = queuedFollowUps queue.mailbox := by
  have apart : ((queue.mailbox.filter MailboxRow.isActive).map MailboxRow.dispatchKey).Nodup := by
    apply List.Nodup.of_map fun key => (ofLex (ofLex (ofLex key).2).2).2
    rw [List.map_map]
    have ids : ((queue.mailbox.filter MailboxRow.isActive).map MailboxRow.id).Nodup :=
      distinct.sublist (filter_sublist.map _)
    convert ids using 2
    funext row
    exact row.dispatchKey_id
  rw [activeInputs, inDispatchOrder, ← MailboxRow.dispatchedBefore_compares.inOrder_filter apart,
    List.filter_filter, queuedFollowUps, inDispatchOrder]
  congr 1
  apply filter_congr
  intro row _
  rw [Bool.and_eq_left_iff_imp]
  intro followUp
  rw [MailboxRow.isQueuedFollowUp_iff] at followUp
  rw [MailboxRow.isActive, followUp.1]
  rfl

theorem replayed_mailbox {request : EnqueueUserInput} {context : ControlContext} {row : MailboxRow}
    (mem : row ∈ queue.mailbox) (known : row.clientInputId = request.clientInputId)
    (named : request.clientInputId.isSome) :
    (queue.perform (.enqueueUserInput request context)).mailbox = queue.mailbox := by
  obtain ⟨clientInputId, hNamed⟩ := isSome_iff_exists.mp named
  rw [perform]
  cases enqueues : queue.enqueueUserInput request context with
  | error => rfl
  | ok enqueued =>
    obtain ⟨_, _⟩ := enqueued
    obtain ⟨rfl, -⟩ | ⟨-, -, missing⟩ := enqueueUserInput_cases enqueues
    · rfl
    · refine absurd ?_ (findClientInput_none (missing clientInputId hNamed))
      rw [← hNamed, ← known]
      exact mem_map_of_mem mem

/-- The follow-ups of a queue are a list that its operations edit. -/
structure FollowUpOrder (queue : SessionQueue) : Prop where
  placed : ∀ row ∈ queue.mailbox, row.isQueuedFollowUp = true →
    row.followUpPosition.isSome = true
  distinct : ∀ row ∈ queue.mailbox, ∀ other ∈ queue.mailbox, row.isQueuedFollowUp = true →
    other.isQueuedFollowUp = true → row.followUpPosition = other.followUpPosition → row = other
  dispatched : (queue.activeInputs.filter MailboxRow.isQueuedFollowUp).map MailboxRow.id =
    queuedFollowUpIds queue.mailbox
  edited : ∀ operations later, operations.foldlM SessionQueue.step queue = some later →
    queuedFollowUpIds later.mailbox =
      queue.followUpList (queuedFollowUpIds queue.mailbox) operations
  enqueuedOnce : (queue.mailbox.filterMap MailboxRow.clientInputId).Nodup
  replayed : ∀ request context, ∀ row ∈ queue.mailbox,
    row.clientInputId = request.clientInputId → request.clientInputId.isSome = true →
    (queue.perform (.enqueueUserInput request context)).mailbox = queue.mailbox
  waits : ∀ operation after, queue.step operation = some after →
    Waits operation.Ends queue.mailbox after.mailbox

/-- Positions that are drawn, emptied, renumbered and left with gaps keep the follow-ups in
the order of a list that grows at its end, shrinks where an input leaves, and is permuted
by a reordering. -/
theorem follow_ups_are_a_list (reaches : followUpQueues.Reaches queue) : FollowUpOrder queue where
  placed := by
    intro row mem followUp
    exact (FollowUpStart.of_reaches reaches).inPlace.placed row
      (mem_queuedFollowUps.mpr ⟨mem, followUp⟩)
  distinct := by
    intro row mem other otherMember followUp otherFollowUp same
    have inPlace := (FollowUpStart.of_reaches reaches).inPlace
    have apart := pairwise_map.mpr (inPlace.ascends.imp MailboxRow.PlacedBefore.position_ne)
    exact inj_on_of_nodup_map apart (mem_queuedFollowUps.mpr ⟨mem, followUp⟩)
      (mem_queuedFollowUps.mpr ⟨otherMember, otherFollowUp⟩) same
  dispatched := by
    rw [activeInputs_followUps (FollowUpStart.of_reaches reaches).sound.ids, queuedFollowUpIds]
  edited := fun _ _ ran => (FollowUpStart.of_reaches reaches).run ran
  enqueuedOnce := (FollowUpStart.of_reaches reaches).sound.clientInputIds
  replayed := fun _ _ _ mem known named => replayed_mailbox mem known named
  waits := fun _ _ stepped => step_waits stepped

/-- Of three follow-ups that were reordered the first is edited and the second promoted. -/
theorem follow_ups_are_a_list_promoted :
    ∃ queue : SessionQueue,
      queuedFollowUpIds queue.mailbox = ["input_3", "input_2", "input_4"]
        ∧ FollowUpOrder queue := by
  let start : SessionQueue :=
    { session :=
        { id := "session"
          parentSessionId := none
          delegationId := none
          subagentType := none
          delegation := { id := "", parentSessionId := "", status := .running }
          entries := []
          activeLeafId := none
          actions := []
          mailbox := [] }
      sessionRevision := 0
      queueRevision := 0
      transcriptRevision := 0 }
  let enqueue (inputId : String) (createdAt : Nat) : QueueOperation := .enqueueUserInput
      { priority := .followUp
        content := .text inputId
        clientInputId := some inputId
        expectedActiveLeafId := none }
      { reusedByOtherChild := false
        routeRead := .ok ()
        inputId
        createdAt
        promotedAt := createdAt }
  let operations : List QueueOperation :=
    [enqueue "input_1" 3, enqueue "input_2" 2, enqueue "input_3" 1,
      .reorder ["input_3", "input_1", "input_2"] (some 3), .update "input_3" (.text "edited") none,
      .promote "input_1" 4 (.ok ()), enqueue "input_4" 0]
  have ran : (operations.foldlM step start).map (fun queue => queuedFollowUpIds queue.mailbox) =
      some ["input_3", "input_2", "input_4"] := by
    decide +kernel
  obtain ⟨queue, enabled, listed⟩ := map_eq_some_iff.mp ran
  have initially : FollowUpStart start :=
    { sound :=
        ⟨nodup_nil, nodup_nil, fun _ mem => absurd mem not_mem_nil,
          fun _ mem => absurd mem not_mem_nil⟩
      noConsuming := fun _ mem => absurd mem not_mem_nil
      inPlace := ⟨fun _ mem => absurd mem not_mem_nil, .nil⟩ }
  have reaches : followUpQueues.Reaches queue := .run (.start initially) enabled
  exact ⟨queue, listed, follow_ups_are_a_list reaches⟩

end SessionQueue

end PiRelay.Store
