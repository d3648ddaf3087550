import PiRelay.AgentStore.DelegationTransactions
import PiRelay.AgentStore.QueueMoves

/-! Inputs that are queued or being consumed are active. The work on a session takes
active inputs out of its mailbox and puts none in. -/
namespace PiRelay.Store

open AgentVocab

/-- An active row of a mailbox was active before. -/
def Shrinks (before after : List MailboxRow) : Prop :=
  ∀ row ∈ after, row.isActive = true → ∃ prior ∈ before, prior.isActive = true ∧ prior.id = row.id

namespace Shrinks

theorem refl (rows : List MailboxRow) : Shrinks rows rows :=
  fun row mem active => ⟨row, mem, active, rfl⟩

theorem of_map {rows : List MailboxRow} {change : MailboxRow → MailboxRow}
    (keeps : ∀ row, (change row).isActive → row.isActive ∧ row.id = (change row).id) :
    Shrinks rows (rows.map change) := by
  intro row mem active
  obtain ⟨prior, inRows, rfl⟩ := List.mem_map.mp mem
  exact ⟨prior, inRows, (keeps prior active).1, (keeps prior active).2⟩

end Shrinks

/-- Moves of rows make no input active that was not. -/
theorem InputMoves.shrinks {before after : List MailboxRow} (moves : InputMoves before after) :
    Shrinks before after := by
  intro row mem active
  obtain ⟨prior, inBefore, move⟩ := moves.predecessor mem
  refine ⟨prior, inBefore, ?_, move.id.symm⟩
  by_contra ended
  rw [Bool.not_eq_true] at ended
  rw [MailboxRow.isActive, move.ended ended] at active
  exact Bool.false_ne_true (ended.symm.trans active)

namespace SessionQueue

variable {queue after : SessionQueue} {inputId : String}

theorem updateQueuedInput_moves {content : UserMessage} {expected : Option Int}
    {result : EditQueuedInputResult}
    (updates : queue.updateQueuedInput inputId content expected = .ok (after, result)) :
    InputMoves queue.mailbox after.mailbox := by
  rcases updateQueuedInput_cases updates with ⟨same, -⟩ | ⟨edited, -⟩
  · rw [same]
    exact .refl _
  · rw [edited]
    exact InputMoves.of_admitted fun row admitted => edit_move content admitted

theorem reorderQueuedFollowUps_moves (queue : SessionQueue) (inputIds : List String)
    (expected : Option Int) :
    InputMoves queue.mailbox (queue.reorderQueuedFollowUps inputIds expected).1.mailbox := by
  rcases queue.reorderQueuedFollowUps_cases inputIds expected with ⟨same, -⟩ | ⟨placed, -⟩
  · rw [same]
    exact .refl _
  · rw [placed]
    exact numberRows_moves _ _ _

theorem resetConsumingInput_moves (queue : SessionQueue) (inputId claimId : String) :
    InputMoves queue.mailbox (queue.resetConsumingInput inputId claimId).mailbox := by
  rw [resetConsumingInput]
  split
  · exact .refl _
  · apply resetConsuming_moves
    intro row admitted
    simp only [Bool.and_eq_true, beq_iff_eq] at admitted
    exact admitted.1.2

end SessionQueue

/-- The work on a session moves rows of its mailbox, and puts none in. -/
theorem SessionWork.run_moves (task : SessionWork) (child : ChildSession) :
    InputMoves child.mailbox (task.run child).mailbox := by
  cases task with
  | promote inputId promotedAt => exact child.promoteQueuedInput_moves inputId promotedAt
  | update inputId content =>
    rw [run]
    split
    · rename_i updates
      exact SessionQueue.updateQueuedInput_moves updates
    · exact .refl _
  | cancel inputId => exact child.cancelQueuedInput_moves inputId
  | reorder inputIds => exact child.queue.reorderQueuedFollowUps_moves inputIds none
  | resetConsuming =>
    exact .of_admitted fun row consuming => SessionQueue.reset_move (eq_of_beq consuming)
  | resetConsumingInput inputId claimId => exact child.queue.resetConsumingInput_moves inputId claimId
  | persist batch nowMs =>
    rw [run]
    cases persists : child.persistOutputs batch nowMs with
    | none => exact .refl _
    | some => exact ChildSession.persistOutputs_moves persists
  | markReady inputId =>
    rw [run]
    cases marks : child.markSubagentControlReady inputId with
    | error => exact .refl _
    | ok => exact ChildSession.settles_moves (ChildSession.markSubagentControlReady_settles marks)
  | skipStale inputId =>
    rw [run]
    cases settles : child.skipStaleSubagentControlInterrupt inputId with
    | error => exact .refl _
    | ok =>
      exact ChildSession.settles_moves (ChildSession.settleStaleSubagentControl_settles settles)
  | applyAtBoundary inputId =>
    rw [run]
    cases applies : child.applySubagentControlInterruptAtBoundary inputId with
    | error => exact .refl _
    | ok => exact ChildSession.applySubagentControlInterruptAtBoundary_moves applies

end PiRelay.Store
