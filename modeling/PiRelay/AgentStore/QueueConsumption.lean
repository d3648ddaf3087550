import PiRelay.AgentStore.QueueMoves

/-! Taking an input and consuming it are two transactions with two queries. An input
that was taken can be consumed for as long as nobody has touched it and nothing goes
before it, and the output transaction that tries otherwise is undone as a whole. -/
namespace PiRelay.Store

open AgentVocab AgentCore Session ChildSession List Option
open Library (earliest_mem)

namespace ChildSession

variable {child : ChildSession}

/-- What the consuming query may select. -/
def isDispatchable (child : ChildSession) (row : MailboxRow) : Bool :=
  row.status == .queued && !row.isHeld && !child.mailbox.any MailboxRow.blocksMailbox

variable {row : MailboxRow}

theorem dueInput_some (due : child.dueInput = some row) :
    row ∈ child.mailbox ∧ child.isDispatchable row
      ∧ ∀ other ∈ child.mailbox, child.isDispatchable other →
        row.dispatchKey ≤ other.dispatchKey := by
  rw [dueInput] at due
  split at due
  · cases due
  · rename_i unblocked
    have noBlocker := Bool.eq_false_of_not_eq_true unblocked
    obtain ⟨mem, queued⟩ := mem_filter.mp (earliest_mem due)
    refine ⟨mem, by rw [isDispatchable, queued, noBlocker]; rfl, ?_⟩
    intro other otherMember dispatchable
    rw [isDispatchable, noBlocker, Bool.not_false, Bool.and_true] at dispatchable
    exact MailboxRow.dispatchedBefore_compares.earliest_least due other
      (mem_filter.mpr ⟨otherMember, dispatchable⟩)

theorem dueInput_eq (mem : row ∈ child.mailbox) (dispatchable : child.isDispatchable row)
    (first : ∀ other ∈ child.mailbox, child.isDispatchable other → other ≠ row →
      row.dispatchKey < other.dispatchKey) : child.dueInput = some row := by
  have parts := dispatchable
  rw [isDispatchable, Bool.and_eq_true, Bool.not_eq_true'] at parts
  rw [dueInput, parts.2, if_neg Bool.false_ne_true]
  apply MailboxRow.dispatchedBefore_compares.earliest_eq
  · exact mem_filter.mpr ⟨mem, parts.1⟩
  · intro other isOther different
    obtain ⟨otherMember, queued⟩ := mem_filter.mp isOther
    exact first other otherMember (by rw [isDispatchable, queued, parts.2]; rfl) different

variable {input : TakenInput}

theorem taken_dueInput (distinct : (child.mailbox.map MailboxRow.id).Nodup)
    (holdsUp : ∀ row ∈ child.mailbox, row.HoldsUp)
    (taken : child.takeNextQueuedInput = some input ∨ child.takeNextQueuedSteerInput = some input) :
    ∃ row, child.dueInput = some row ∧ row.id = input.id ∧ row.version = input.rowVersion
      ∧ input.claimId = "" := by
  obtain ⟨priority, taken, onlySteers⟩ : ∃ priority,
      child.takeNextQueuedInputMatching priority = some input
        ∧ (priority = none ∨ priority = some .steer) := by
    rcases taken with any | steer
    · exact ⟨none, any, .inl rfl⟩
    · exact ⟨some .steer, steer, .inr rfl⟩
  obtain ⟨row, first, rfl⟩ := map_eq_some_iff.mp taken
  obtain ⟨mem, takeable⟩ := mem_filter.mp (earliest_mem first)
  simp only [isTakeable, Bool.and_eq_true, Bool.not_eq_true'] at takeable
  obtain ⟨⟨⟨⟨queued, -⟩, free⟩, unblocked⟩, admitted⟩ := takeable
  refine ⟨row, ?_, rfl, rfl, rfl⟩
  apply dueInput_eq mem
  · rw [isDispatchable, queued, free, unblocked]
    rfl
  · intro other otherMember dispatchable different
    simp only [isDispatchable, Bool.and_eq_true, Bool.not_eq_true'] at dispatchable
    obtain ⟨⟨otherQueued, otherFree⟩, -⟩ := dispatchable
    have apart : row.dispatchKey ≠ other.dispatchKey := fun same =>
      different (eq_of_id_eq distinct otherMember mem (MailboxRow.id_of_dispatchKey same).symm)
    -- A queued interrupt would hold up the mailbox.
    have noInterrupt : other.controlKind ≠ some .interrupt := by
      intro isInterrupt
      have active : other.isActive := by
        rw [MailboxRow.isActive, otherQueued]
        rfl
      rw [List.any_eq_false] at unblocked
      exact unblocked other otherMember (holdsUp other otherMember active isInterrupt)
    by_cases selected : priority.all (· == other.priority)
    · apply lt_of_le_of_ne ?_ apart
      apply MailboxRow.dispatchedBefore_compares.earliest_least first
      refine mem_filter.mpr ⟨otherMember, ?_⟩
      simp [isTakeable, otherQueued, noInterrupt, otherFree, unblocked, selected]
    · -- Every steer goes before a follow-up.
      rcases onlySteers with rfl | rfl
      · exact absurd rfl selected
      · have isSteer : row.priority = .steer := by
          rw [all_some, beq_iff_eq] at admitted
          exact admitted.symm
        have isFollowUp : other.priority = .followUp := by
          cases hPriority : other.priority with
          | steer => exact absurd (by simp [hPriority]) selected
          | followUp => rfl
        rw [← MailboxRow.dispatchedBefore_compares, MailboxRow.dispatchedBefore, isSteer, isFollowUp]

theorem consumeInput_of_due (due : child.dueInput = some row)
    (named : row.id = input.id) (version : row.version = input.rowVersion) :
    (child.consumeInput input).isSome := by
  obtain ⟨mem, dispatchable, -⟩ := dueInput_some due
  have queued : row.status = .queued := by
    simp only [isDispatchable, Bool.and_eq_true, beq_iff_eq] at dispatchable
    exact dispatchable.1.1
  have admitted : child.mailbox.any (child.consumes input) := by
    refine List.any_eq_true.mpr ⟨row, mem, ?_⟩
    simp [consumes, named, queued, version, due]
  rw [consumeInput, updateRows, if_pos admitted]
  rfl

variable {after : ChildSession}

section

variable (consumed : child.consumeInput input = some after)
include consumed

theorem consumeInput_some :
    ∃ row ∈ child.mailbox, row.id = input.id
      ∧ (row.version = input.rowVersion ∧ (∃ due, child.dueInput = some due ∧ due.id = row.id)
        ∨ row.status = .consuming ∧ row.claimId = some input.claimId) := by
  rw [consumeInput, updateRows] at consumed
  obtain ⟨_, updated, -⟩ := map_eq_some_iff.mp consumed
  split at updated
  · rename_i reached
    obtain ⟨row, mem, admitted⟩ := List.any_eq_true.mp reached
    simp only [consumes, Bool.and_eq_true, Bool.or_eq_true, beq_iff_eq] at admitted
    refine ⟨row, mem, admitted.1, ?_⟩
    rcases admitted.2 with ⟨⟨-, version⟩, due⟩ | claimed
    · obtain ⟨first, hFirst, same⟩ := map_eq_some_iff.mp due
      exact .inl ⟨version, first, hFirst, same⟩
    · exact .inr claimed
  · cases updated

theorem consumeInput_active {row : MailboxRow}
    (mem : row ∈ after.mailbox) (active : row.isActive) : row ∈ child.mailbox := by
  rw [consumeInput, updateRows] at consumed
  obtain ⟨_, updated, rfl⟩ := map_eq_some_iff.mp consumed
  split at updated
  · cases updated
    obtain ⟨_, inMailbox, rfl⟩ := mem_map.mp mem
    split at active
    · cases active
    · rw [if_neg (by assumption)]
      exact inMailbox
  · cases updated

theorem consumeInput_grows :
    ∃ row ∈ child.mailbox, row.id = input.id ∧ row.isActive
      ∧ ∃ now ∈ after.mailbox, InputMove row now ∧ now.status = .consumed
        ∧ row.version < now.version := by
  rw [consumeInput, updateRows] at consumed
  obtain ⟨_, updated, rfl⟩ := map_eq_some_iff.mp consumed
  split at updated
  · rename_i reached
    cases updated
    obtain ⟨row, mem, admitted⟩ := List.any_eq_true.mp reached
    have named : row.id = input.id := by
      rw [consumes, Bool.and_eq_true, beq_iff_eq] at admitted
      exact admitted.1
    refine ⟨row, mem, named, consumes_active admitted, _, mem_map_of_mem mem, ?_⟩
    rw [if_pos admitted]
    refine ⟨.edit rfl rfl rfl (.inl rfl) rfl (consumes_active admitted) ?_ ?_, rfl, ?_⟩
    · simp
    · exact fun _ => MailboxRow.holdsUp_of_ended rfl
    · exact Nat.lt_succ_self _
  · cases updated

end

theorem completeAction_isSome {other : ChildSession} (same : child.actions = other.actions)
    (events : List SessionEvent) (nowMs : Nat) (update : Option LeasedActionUpdate) :
    (child.completeAction events nowMs update).isSome =
      (other.completeAction events nowMs update).isSome := by
  cases update with
  | none => rfl
  | some =>
    rw [completeAction, completeAction, same]
    split <;> rfl

theorem applyControlInterrupt_of_unblocked
    (unblocked : ∀ row ∈ child.mailbox, row.isActive → row.blocksMailbox = false)
    (inputId : String) (priorLeafId : Option EntryId) :
    child.applyControlInterrupt inputId priorLeafId = none := by
  cases applies : child.applyControlInterrupt inputId priorLeafId with
  | none => rfl
  | some =>
    rw [applyControlInterrupt] at applies
    split at applies
    · rename_i control mailbox found update
      rw [updateRows] at update
      split at update
      · rename_i reached
        obtain ⟨row, mem, admitted⟩ := List.any_eq_true.mp reached
        simp only [Bool.and_eq_true, MailboxRow.isControlIn, beq_iff_eq] at admitted
        obtain ⟨⟨⟨⟨⟨⟨⟨⟨-, queued⟩, -⟩, -⟩, pending⟩, interrupts⟩, -⟩, -⟩, -⟩ := admitted
        have active : row.isActive := by simp [MailboxRow.isActive, queued]
        have free := unblocked row mem active
        simp [MailboxRow.blocksMailbox, active, interrupts, pending] at free
      · cases update
    · cases applies

theorem completeOutputs_eq (batch : ChildOutputBatch) (nowMs : Nat)
    (consumes : batch.consumedInput = some input) :
    child.completeOutputs batch nowMs =
      if !({ entries := child.entries, activeLeafId := child.activeLeafId } : Database
          ).extendsActiveLeaf batch.entries then none
      else
        (({ child.insertEntries batch.entries with activeLeafId := batch.activeLeafId }
          : ChildSession).consumeInput input).bind
            (·.completeAction batch.sessionEvents nowMs batch.actionUpdate) := by
  rw [completeOutputs]
  rw [consumes]

/-- A due input is consumed whenever the rest of the batch passes. -/
theorem persistOutputs_of_due (due : child.dueInput = some row) (named : row.id = input.id)
    (version : row.version = input.rowVersion) {batch : ChildOutputBatch} (nowMs : Nat)
    (consumes : batch.consumedInput = some input) :
    (child.persistOutputs batch nowMs).isSome =
      (child.persistOutputs { batch with consumedInput := none } nowMs).isSome := by
  obtain ⟨-, dispatchable, -⟩ := dueInput_some due
  have unblocked : ∀ other ∈ child.mailbox, other.isActive →
      other.blocksMailbox = false := by
    rw [isDispatchable, Bool.and_eq_true, Bool.not_eq_true', List.any_eq_false] at dispatchable
    exact fun other mem _ => Bool.eq_false_of_not_eq_true (dispatchable.2 other mem)
  let appended : ChildSession :=
    { child.insertEntries batch.entries with activeLeafId := batch.activeLeafId }
  have dueAppended : appended.dueInput = some row := due
  obtain ⟨consumed, hConsumed⟩ : ∃ consumed, appended.consumeInput input = some consumed :=
    isSome_iff_exists.mp (consumeInput_of_due dueAppended named version)
  have sameActions : consumed.actions = appended.actions := by
    obtain ⟨-, -, actions, -⟩ := consumeInput_moves hConsumed
    exact actions
  have completes := completeAction_isSome sameActions batch.sessionEvents nowMs batch.actionUpdate
  have withInput : child.completeOutputs batch nowMs =
      if !({ entries := child.entries, activeLeafId := child.activeLeafId } : Database
          ).extendsActiveLeaf batch.entries then none
      else consumed.completeAction batch.sessionEvents nowMs batch.actionUpdate := by
    rw [completeOutputs_eq batch nowMs consumes]
    have same : ({ child.insertEntries batch.entries with activeLeafId := batch.activeLeafId }
        : ChildSession).consumeInput input = some consumed := hConsumed
    rw [same, bind_some]
  have without : child.completeOutputs { batch with consumedInput := none } nowMs =
      if !({ entries := child.entries, activeLeafId := child.activeLeafId } : Database
          ).extendsActiveLeaf batch.entries then none
      else appended.completeAction batch.sessionEvents nowMs batch.actionUpdate := by
    rfl
  rw [persistOutputs, persistOutputs, withInput, without]
  split
  · rfl
  · cases hControl : batch.controlInterruptInputId with
    | none =>
      cases hWith : consumed.completeAction batch.sessionEvents nowMs batch.actionUpdate with
      | none =>
        cases hOther : appended.completeAction batch.sessionEvents nowMs batch.actionUpdate with
        | none => rfl
        | some =>
          rw [hWith, hOther] at completes
          cases completes
      | some =>
        cases hOther : appended.completeAction batch.sessionEvents nowMs batch.actionUpdate with
        | none =>
          rw [hWith, hOther] at completes
          cases completes
        | some => rfl
    | some inputId =>
      -- A control that could be applied would hold up the mailbox.
      have refused : ∀ completed : ChildSession,
          (∀ other ∈ completed.mailbox, other.isActive → other ∈ child.mailbox) →
          completed.applyControlInterrupt inputId child.activeLeafId = none := by
        intro completed wasThere
        apply applyControlInterrupt_of_unblocked
        intro other mem active
        exact unblocked other (wasThere other mem active) active
      have noneApplied : ∀ start : ChildSession,
          (∀ other ∈ start.mailbox, other.isActive → other ∈ child.mailbox) →
          ((start.completeAction batch.sessionEvents nowMs batch.actionUpdate).bind
            fun completed => (completed.applyControlInterrupt inputId child.activeLeafId).map
              fun applied => { applied with
                actions := batch.actions.foldl recordAction applied.actions }) = none := by
        intro start wasThere
        cases hCompleted : start.completeAction batch.sessionEvents nowMs batch.actionUpdate with
        | none => rfl
        | some =>
          rw [bind_some, refused]
          · rfl
          · rw [completeAction_mailbox hCompleted]
            exact wasThere
      have first := noneApplied consumed fun other mem active =>
        consumeInput_active hConsumed mem active
      have second := noneApplied appended fun other mem _ => mem
      rw [first, second]

end ChildSession

namespace SessionQueue

/-- Either of the two ways in which an input is taken. -/
def takes (queue : SessionQueue) (input : TakenInput) : Prop :=
  queue.session.takeNextQueuedInput = some input
    ∨ queue.session.takeNextQueuedSteerInput = some input

def Touches (queue : SessionQueue) (inputId : String) : QueueOperation → Prop
  | .update edited content expected =>
    edited = inputId ∧ ∃ after result,
      queue.updateQueuedInput edited content expected = .ok (after, result)
        ∧ result.edited = true
  | .cancel cancelled expected =>
    cancelled = inputId ∧ ∃ after result,
      queue.cancelQueuedInput cancelled expected = .ok (after, result) ∧ result.edited = true
  | .promote promoted promotedAt routeRead =>
    promoted = inputId ∧ ∃ after result,
      queue.promoteQueuedInput promoted promotedAt routeRead = .ok (after, result)
        ∧ result.promoted = true
  | .reorder inputIds expected =>
    inputId ∈ inputIds ∧ (queue.reorderQueuedFollowUps inputIds expected).2.reordered = true
  | .persistOutputs batch accepted nowMs =>
    (∃ input, batch.consumedInput = some input ∧ input.id = inputId)
      ∧ (queue.persistOutputs batch accepted nowMs).isSome = true
  | _ => False

/-- A transaction that is refused leaves everything as it is. -/
def Refuses (queue : SessionQueue) (batch : ChildOutputBatch) (accepted : Option AcceptedInput)
    (nowMs : Nat) : Prop :=
  queue.persistOutputs batch accepted nowMs = none
    ∧ queue.perform (.persistOutputs batch accepted nowMs) = queue

structure ConsumptionAgrees (queue : SessionQueue) : Prop where
  /-- An input that was taken from a queue that has not changed is no obstacle. -/
  untouched : ∀ input, queue.takes input → ∀ later, queues.Leads queue later →
    later.mailbox = queue.mailbox → ∀ batch accepted nowMs, batch.consumedInput = some input →
      (later.persistOutputs batch accepted nowMs).isSome =
        (later.persistOutputs { batch with consumedInput := none } accepted nowMs).isSome
  /-- What has taken effect on the input since makes the transaction fail. -/
  touched : ∀ input, queue.takes input → ∀ middle, queues.Leads queue middle →
    ∀ operation after, middle.step operation = some after → middle.Touches input.id operation →
      ∀ later, queues.Leads after later → ∀ batch accepted nowMs,
        batch.consumedInput = some input → later.Refuses batch accepted nowMs
  /-- So does an input that goes before it now. -/
  overtaken : ∀ input, queue.takes input → ∀ later, queues.Leads queue later →
    (∃ row ∈ later.mailbox, row.id = input.id ∧ ∃ other ∈ later.mailbox,
      later.session.isDispatchable other = true ∧ other.dispatchedBefore row = true) →
      ∀ batch accepted nowMs, batch.consumedInput = some input →
        later.Refuses batch accepted nowMs
  /-- What is consumed is the row that was taken, and it goes before all others. -/
  head : ∀ input, queue.takes input → ∀ later, queues.Leads queue later →
    ∀ batch accepted nowMs, batch.consumedInput = some input →
      (later.persistOutputs batch accepted nowMs).isSome = true →
        ∃ row ∈ later.mailbox, row ∈ queue.mailbox ∧ row.id = input.id
          ∧ later.session.isDispatchable row = true
          ∧ ∀ other ∈ later.mailbox, later.session.isDispatchable other = true → other ≠ row →
            row.dispatchedBefore other = true
  /-- An input that was consumed is not consumed again. -/
  once : ∀ batch accepted nowMs after input, batch.consumedInput = some input →
    (queue.persistOutputs batch accepted nowMs).isSome = true →
    queue.step (.persistOutputs batch accepted nowMs) = some after →
      ∀ later, queues.Leads after later → ∀ again repeated, again.consumedInput = some repeated →
        repeated.id = input.id → ∀ accepted nowMs, later.Refuses again accepted nowMs

variable {batch : ChildOutputBatch} {queue : SessionQueue} {accepted : Option AcceptedInput}
  {nowMs : Nat}

theorem refuses_of_none (none : queue.persistOutputs batch accepted nowMs = none) :
    queue.Refuses batch accepted nowMs := by
  refine ⟨none, ?_⟩
  rw [perform, none]
  rfl

variable {input : TakenInput} {queue after : SessionQueue}

theorem persistOutputs_consumes (consumes : batch.consumedInput = some input)
    (persists : queue.persistOutputs batch accepted nowMs = some after) :
    ∃ row ∈ queue.mailbox, row.id = input.id
      ∧ (row.version = input.rowVersion ∧ (∃ due, queue.session.dueInput = some due
          ∧ due.id = row.id)
        ∨ row.status = .consuming ∧ row.claimId = some input.claimId) := by
  obtain ⟨_, persisted, -⟩ := persistOutputs_cases persists
  rw [ChildSession.persistOutputs, ChildSession.completeOutputs_eq batch nowMs consumes]
    at persisted
  obtain ⟨_, completes, -⟩ := bind_eq_some_iff.mp persisted
  split at completes
  · cases completes
  · obtain ⟨_, hConsumed, -⟩ := bind_eq_some_iff.mp completes
    have found := ChildSession.consumeInput_some hConsumed
    exact found

theorem consumed_row {queue later after : SessionQueue} (reaches : queues.Reaches queue)
    (leads : queues.Leads queue later) {taken : MailboxRow} (mem : taken ∈ queue.mailbox)
    (named : taken.id = input.id) (version : taken.version = input.rowVersion)
    (unclaimed : input.claimId = "") (consumes : batch.consumedInput = some input)
    (persists : later.persistOutputs batch accepted nowMs = some after) :
    taken ∈ later.mailbox ∧ later.session.dueInput = some taken := by
  have sound := SoundQueue.of_reaches (leads.reaches reaches)
  obtain ⟨row, inLater, rowNamed, found⟩ := persistOutputs_consumes consumes persists
  obtain ⟨now, nowInLater, move⟩ := becomes_leads reaches leads mem
  obtain rfl : now = row :=
    eq_of_id_eq sound.ids nowInLater inLater (move.id.trans (named.trans rowNamed.symm))
  rcases found with ⟨sameVersion, due, hDue, dueNamed⟩ | ⟨consuming, claimed⟩
  · have unmoved : now = taken := by
      rcases move.version with same | grows
      · exact same
      · omega
    obtain rfl := unmoved
    have dueRow : due = now := eq_of_id_eq sound.ids (dueInput_some hDue).1 inLater dueNamed
    rw [dueRow] at hDue
    exact ⟨inLater, hDue⟩
  · rw [unclaimed] at claimed
    exact absurd claimed (sound.claimed now inLater consuming)

theorem persistOutputs_ends (consumes : batch.consumedInput = some input)
    (persists : queue.persistOutputs batch accepted nowMs = some after) :
    ∃ row ∈ queue.mailbox, row.id = input.id ∧ row.isActive
      ∧ ∃ now ∈ after.mailbox, InputMove row now ∧ now.isActive = false
        ∧ row.version < now.version := by
  obtain ⟨session, persisted, recorded, -⟩ := persistOutputs_cases persists
  have ends : ∃ row ∈ queue.mailbox, row.id = input.id ∧ row.isActive
      ∧ ∃ now ∈ session.mailbox, InputMove row now ∧ now.isActive = false
        ∧ row.version < now.version := by
    apply persistOutputs_rows (motive := fun rows =>
      ∃ row ∈ queue.mailbox, row.id = input.id ∧ row.isActive
        ∧ ∃ now ∈ rows, InputMove row now ∧ now.isActive = false
          ∧ row.version < now.version) persisted
    · intro nothing
      rw [consumes] at nothing
      cases nothing
    · intro taken appended child hInput same takes
      cases consumes.symm.trans hInput
      obtain ⟨row, mem, named, active, next, inConsumed, first, ended, grows⟩ :=
        consumeInput_grows takes
      have nextEnded : next.isActive = false := by simp [MailboxRow.isActive, ended]
      rw [same] at mem
      exact ⟨row, mem, named, active, next, inConsumed, first, nextEnded, grows⟩
    · rintro rows updated ⟨row, mem, named, active, now, inRows, move, ended, grows⟩ applied
      obtain ⟨later, inUpdated, second⟩ := (applies_moves applied).successor inRows
      refine ⟨row, mem, named, active, later, inUpdated, move.trans second, ?_,
        Nat.lt_of_lt_of_le grows second.atLeast⟩
      rw [MailboxRow.isActive, second.ended ended]
      exact ended
  obtain ⟨row, mem, named, active, now, inSession, rest⟩ := ends
  refine ⟨row, mem, named, active, now, ?_, rest⟩
  rcases recorded with same | ⟨new, clientInputId, -, -, -, added⟩
  · rw [same]
    exact inSession
  · rw [added]
    exact mem_append_left _ inSession

variable {row : MailboxRow}

theorem followUp_of_any (sound : SoundQueue queue) {inputId : String}
    (waits : queue.mailbox.any (ChildSession.isQueuedFollowUp inputId))
    (mem : row ∈ queue.mailbox) (named : row.id = inputId) :
    ChildSession.isQueuedFollowUp inputId row := by
  obtain ⟨found, foundMember, followUp⟩ := List.any_eq_true.mp waits
  have foundNamed : found.id = inputId := by
    simp only [isQueuedFollowUp, Bool.and_eq_true, beq_iff_eq] at followUp
    exact followUp.1.1
  rwa [eq_of_id_eq sound.ids mem foundMember (named.trans foundNamed.symm)]

theorem grows_of_admitted {rows after : List MailboxRow} {admits : MailboxRow → Bool}
    {change : MailboxRow → MailboxRow} (mem : row ∈ rows)
    (admitted : admits row) (grows : row.version < (change row).version)
    (same : (change row).id = row.id)
    (moves : InputMoves (rows.map fun row => if admits row then change row else row) after) :
    ∃ now ∈ after, now.id = row.id ∧ row.version < now.version := by
  have changed := mem_map_of_mem (f := fun row => if admits row then change row else row) mem
  simp only [admitted, if_true] at changed
  obtain ⟨now, inAfter, move⟩ := moves.successor changed
  exact ⟨now, inAfter, move.id.trans same, Nat.lt_of_lt_of_le grows move.atLeast⟩

/-- An operation that touches a row raises its version. -/
theorem touches_grows (sound : SoundQueue queue)
    {operation : QueueOperation} (stepped : queue.step operation = some after) {inputId : String}
    (touches : queue.Touches inputId operation) (mem : row ∈ queue.mailbox)
    (named : row.id = inputId) : ∃ now ∈ after.mailbox, now.id = inputId
      ∧ row.version < now.version := by
  rw [step] at stepped
  split at stepped
  · cases stepped
  cases stepped
  subst named
  cases operation with
  | update =>
    obtain ⟨rfl, updated, result, updates, tookEffect⟩ := touches
    rw [perform, updates]
    obtain ⟨-, refused⟩ | ⟨rfl, -, -, waits⟩ := updateQueuedInput_cases updates
    · rw [tookEffect] at refused
      cases refused
    · exact grows_of_admitted mem (followUp_of_any sound waits mem rfl)
        (Nat.lt_succ_self _) rfl (.refl _)
  | cancel =>
    obtain ⟨rfl, updated, result, cancels, tookEffect⟩ := touches
    rw [perform, cancels]
    obtain ⟨-, refused, -⟩ | ⟨rfl, -, -, waits⟩ := cancelQueuedInput_cases cancels
    · rw [tookEffect] at refused
      cases refused
    · exact grows_of_admitted mem (followUp_of_any sound waits mem rfl)
        (Nat.lt_succ_self _) rfl (renumberFollowUps_moves _)
  | promote =>
    obtain ⟨rfl, updated, result, promotes, tookEffect⟩ := touches
    rw [perform, promotes]
    obtain ⟨-, refused, -⟩ | ⟨rfl, -, waits⟩ := promoteQueuedInput_cases promotes
    · rw [tookEffect] at refused
      cases refused
    · exact grows_of_admitted mem (followUp_of_any sound waits mem rfl)
        (Nat.lt_succ_self _) rfl (renumberFollowUps_moves _)
  | reorder inputIds expected =>
    obtain ⟨listed, tookEffect⟩ := touches
    rw [perform]
    rcases queue.reorderQueuedFollowUps_cases inputIds expected with
      ⟨-, refused, -⟩ | ⟨reordered, -, -, perm⟩
    · rw [tookEffect] at refused
      cases refused
    · rw [reordered]
      have isFollowUp := perm.subset listed
      obtain ⟨found, inOrder, sameId⟩ := mem_map.mp isFollowUp
      obtain ⟨inMailbox, followUp⟩ := mem_queuedFollowUps.mp inOrder
      obtain rfl := eq_of_id_eq sound.ids inMailbox mem sameId
      rw [MailboxRow.isQueuedFollowUp_iff] at followUp
      obtain ⟨position, atPosition⟩ := mem_iff_getElem?.mp listed
      have inNumbers : (found.id, position) ∈ inputIds.zipIdx :=
        mem_zipIdx_iff_getElem?.mpr atPosition
      let admits := fun (numbered : String × Nat) row =>
        isQueuedFollowUp numbered.1 row
      have grows : found.version < (found.number admits inputIds.zipIdx).version :=
        MailboxRow.number_grows (fun _ _ _ => rfl) inNumbers
          (by simp [admits, isQueuedFollowUp, followUp])
      refine ⟨_, ?_, number_id admits inputIds.zipIdx found, grows⟩
      rw [bumpRevisions_mailbox, withMailbox_mailbox, placeFollowUps, numberRows_eq]
      exact mem_map_of_mem mem
  | persistOutputs =>
    obtain ⟨⟨_, consumes, named⟩, tookEffect⟩ := touches
    obtain ⟨_, persists⟩ := isSome_iff_exists.mp tookEffect
    rw [perform, persists]
    obtain ⟨found, inMailbox, foundNamed, -, now, inAfter, move, -, grows⟩ :=
      persistOutputs_ends consumes persists
    obtain rfl := eq_of_id_eq sound.ids inMailbox mem (foundNamed.trans named)
    exact ⟨now, inAfter, move.id, grows⟩
  | _ => exact absurd touches not_false

theorem takes_row (sound : SoundQueue queue) (taken : queue.takes input) :
    ∃ row ∈ queue.mailbox, row.id = input.id ∧ row.version = input.rowVersion
      ∧ input.claimId = "" ∧ queue.session.dueInput = some row := by
  obtain ⟨row, due, named, version, unclaimed⟩ := taken_dueInput sound.ids sound.holdsUp taken
  exact ⟨row, (dueInput_some due).1, named, version, unclaimed, due⟩

theorem persistOutputs_of_same {queue later : SessionQueue} (same : later.mailbox = queue.mailbox)
    (due : queue.session.dueInput = some row)
    (named : row.id = input.id) (version : row.version = input.rowVersion)
    (consumes : batch.consumedInput = some input) :
    (later.persistOutputs batch accepted nowMs).isSome =
      (later.persistOutputs { batch with consumedInput := none } accepted nowMs).isSome := by
  have sameMailbox : later.session.mailbox = queue.session.mailbox := same
  have dueLater : later.session.dueInput = some row := by
    rw [dueInput, sameMailbox, ← due, dueInput]
  have agrees := persistOutputs_of_due dueLater named version nowMs consumes
  have records : ∀ session other : ChildSession,
      session.mailbox.map MailboxRow.clientInputId = other.mailbox.map MailboxRow.clientInputId →
      (({ later with session } : SessionQueue).recordAcceptedInput accepted).isSome =
        (({ later with session := other } : SessionQueue).recordAcceptedInput accepted).isSome := by
    intro session other sameIds
    have found : ∀ clientInputId,
        (({ later with session } : SessionQueue).findClientInput clientInputId).isSome =
          (({ later with session := other } : SessionQueue).findClientInput clientInputId).isSome := by
      intro clientInputId
      have listed : ∀ rows : List MailboxRow,
          (rows.find? (·.clientInputId == some clientInputId)).isSome =
            (rows.map MailboxRow.clientInputId).any (· == some clientInputId) := by
        intro rows
        rw [isSome_find?, List.any_map]
        rfl
      rw [findClientInput, findClientInput, listed, listed]
      exact congrArg (List.any · _) sameIds
    cases accepted with
    | none => rfl
    | some new =>
      rw [recordAcceptedInput, recordAcceptedInput]
      cases new.clientInputId with
      | none => rfl
      | some clientInputId =>
        have same := found clientInputId
        simp only
        cases hFirst : ({ later with session } : SessionQueue).findClientInput clientInputId with
        | none =>
          rw [hFirst] at same
          have missing := not_isSome_iff_eq_none.mp
            (fun found => Bool.false_ne_true (same.trans found))
          rw [missing]
          rfl
        | some =>
          rw [hFirst] at same
          obtain ⟨_, hSecond⟩ := isSome_iff_exists.mp same.symm
          rw [hSecond]
  rw [persistOutputs, persistOutputs]
  cases hWith : later.session.persistOutputs batch nowMs with
  | none =>
    rw [hWith] at agrees
    have refused := not_isSome_iff_eq_none.mp
      (fun persisted => Bool.false_ne_true (agrees.trans persisted))
    rw [refused]
    rfl
  | some =>
    rw [hWith] at agrees
    obtain ⟨other, hWithout⟩ := isSome_iff_exists.mp agrees.symm
    rw [hWithout, bind_some, bind_some, isSome_map, isSome_map]
    apply records
    rw [(persistOutputs_moves hWith).clientInputIds, (persistOutputs_moves hWithout).clientInputIds]

/-- Whoever takes an input can consume it for as long as it is due as it was taken. -/
theorem consumption_agrees {queue : SessionQueue} (reaches : queues.Reaches queue) :
    ConsumptionAgrees queue := by
  have sound := SoundQueue.of_reaches reaches
  constructor
  · intro input taken later _ same batch accepted nowMs consumes
    obtain ⟨row, -, named, version, -, due⟩ := takes_row sound taken
    exact persistOutputs_of_same same due named version consumes
  · intro input taken middle toMiddle operation after stepped touches later toLater batch accepted
      nowMs consumes
    obtain ⟨row, mem, named, version, unclaimed, -⟩ := takes_row sound taken
    have atMiddle := toMiddle.reaches reaches
    have atAfter : queues.Reaches after := .next atMiddle stepped
    obtain ⟨_, inMiddle, first⟩ := becomes_leads reaches toMiddle mem
    obtain ⟨next, inAfter, nextNamed, _⟩ := touches_grows (SoundQueue.of_reaches atMiddle)
      stepped touches inMiddle (first.id.trans named)
    obtain ⟨now, inLater, last⟩ := becomes_leads atAfter toLater inAfter
    apply refuses_of_none
    by_contra persisted
    obtain ⟨result, persists⟩ := ne_none_iff_exists'.mp persisted
    have leads : queues.Leads queue later := by
      exact (toMiddle.trans (.next .refl stepped)).trans toLater
    obtain ⟨stays, -⟩ := consumed_row reaches leads mem named version unclaimed consumes persists
    have unmoved : now = row := eq_of_id_eq (SoundQueue.of_reaches (leads.reaches reaches)).ids
      inLater stays (last.id.trans (nextNamed.trans named.symm))
    have atLeast := first.atLeast
    have atLeastLast := last.atLeast
    rw [unmoved] at atLeastLast
    omega
  · rintro input taken later leads ⟨row, inLater, rowNamed, other, otherInLater, dispatchable,
      sooner⟩ batch accepted nowMs consumes
    obtain ⟨first, mem, named, version, unclaimed, -⟩ := takes_row sound taken
    apply refuses_of_none
    by_contra persisted
    obtain ⟨result, persists⟩ := ne_none_iff_exists'.mp persisted
    obtain ⟨stays, due⟩ := consumed_row reaches leads mem named version unclaimed consumes persists
    obtain rfl := eq_of_id_eq (SoundQueue.of_reaches (leads.reaches reaches)).ids stays inLater
      (named.trans rowNamed.symm)
    have least := (dueInput_some due).2.2 other otherInLater dispatchable
    rw [MailboxRow.dispatchedBefore_compares] at sooner
    exact absurd sooner (not_lt.mpr least)
  · intro input taken later leads batch accepted nowMs consumes persisted
    obtain ⟨row, mem, named, version, unclaimed, -⟩ := takes_row sound taken
    obtain ⟨result, persists⟩ := isSome_iff_exists.mp persisted
    obtain ⟨stays, due⟩ := consumed_row reaches leads mem named version unclaimed consumes persists
    obtain ⟨-, dispatchable, least⟩ := dueInput_some due
    refine ⟨row, stays, mem, named, dispatchable, ?_⟩
    intro other otherInLater otherDispatchable different
    rw [MailboxRow.dispatchedBefore_compares]
    apply lt_of_le_of_ne (least other otherInLater otherDispatchable)
    intro same
    exact different (eq_of_id_eq (SoundQueue.of_reaches (leads.reaches reaches)).ids otherInLater
      stays (MailboxRow.id_of_dispatchKey same).symm)
  · intro batch accepted nowMs after input consumes persisted stepped later leads again repeated
      consumesAgain sameId accepted' nowMs'
    obtain ⟨result, persists⟩ := isSome_iff_exists.mp persisted
    have atAfter : queues.Reaches after := .next reaches stepped
    have result_eq : after = result := by
      rw [step] at stepped
      split at stepped
      · cases stepped
      · rw [← Option.some.inj stepped, perform, persists]
        rfl
    subst result_eq
    obtain ⟨row, mem, named, -, next, inAfter, move, ended, -⟩ :=
      persistOutputs_ends consumes persists
    obtain ⟨now, inLater, last⟩ := becomes_leads atAfter leads inAfter
    have nowEnded : now.isActive = false := by
      rw [MailboxRow.isActive, last.ended ended]
      exact ended
    have soundLater := SoundQueue.of_reaches (leads.reaches atAfter)
    apply refuses_of_none
    by_contra persistedAgain
    obtain ⟨result, persistsAgain⟩ := ne_none_iff_exists'.mp persistedAgain
    obtain ⟨found, inMailbox, foundNamed, foundActive, -⟩ :=
      persistOutputs_ends consumesAgain persistsAgain
    obtain rfl := eq_of_id_eq soundLater.ids inMailbox inLater
      (foundNamed.trans (sameId.trans (named.symm.trans (move.id.symm.trans last.id.symm))))
    rw [nowEnded] at foundActive
    cases foundActive

/-- Of two follow-ups and a steer the steer is taken. -/
theorem consumption_agrees_steer :
    ∃ queue : SessionQueue,
      queue.session.takeNextQueuedInput.map TakenInput.id = some "input_3"
        ∧ ConsumptionAgrees queue := by
  let start : SessionQueue :=
    { session :=
        { id := "session"
          parentSessionId := none
          delegationId := none
          subagentType := none
          delegation := { id := "", parentSessionId := "", status := .running }
          entries := []
          activeLeafId := none
          actions := []
          mailbox := [] }
      sessionRevision := 0
      queueRevision := 0
      transcriptRevision := 0 }
  let enqueue (inputId : String) (priority : InputPriority) (createdAt : Nat) : QueueOperation :=
    .enqueueUserInput
      { priority
        content := .text inputId
        clientInputId := none
        expectedActiveLeafId := none }
      { reusedByOtherChild := false
        routeRead := .ok ()
        inputId
        createdAt
        promotedAt := createdAt }
  let operations : List QueueOperation :=
    [enqueue "input_1" .followUp 1, enqueue "input_2" .followUp 2, enqueue "input_3" .steer 3,
      .reorder ["input_2", "input_1"] (some 3)]
  have ran : (operations.foldlM step start).map
      (fun queue => queue.session.takeNextQueuedInput.map TakenInput.id) =
        some (some "input_3") := by
    decide +kernel
  obtain ⟨queue, enabled, taken⟩ := map_eq_some_iff.mp ran
  have initially : SoundQueue start :=
    ⟨nodup_nil, nodup_nil, fun _ mem => absurd mem not_mem_nil,
      fun _ mem => absurd mem not_mem_nil⟩
  have reaches : queues.Reaches queue := .run (.start initially) enabled
  exact ⟨queue, taken, consumption_agrees reaches⟩

end SessionQueue

end PiRelay.Store
