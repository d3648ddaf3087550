import PiRelay.AgentStore.ControlPhases
import PiRelay.AgentStore.DispatchOrder

/-! Everything that is done to the input queue of a session, and what no part of it does
to a row: ids stay, versions grow, an ended row stays ended, and an interrupt that waits
holds up the queue. -/
namespace PiRelay.Store

open AgentVocab AgentCore Session ChildSession List Option
open Library (Machine)

/-- A pure interrupt holds up the mailbox for as long as it is active. -/
def MailboxRow.HoldsUp (row : MailboxRow) : Prop :=
  row.isActive = true → row.controlKind = some .interrupt → row.blocksMailbox = true

def MailboxRow.claimId (row : MailboxRow) : Option String := row.origin.bind InputOrigin.claimId

open MailboxRow

structure InputMove (before after : MailboxRow) : Prop where
  id : after.id = before.id
  clientInputId : after.clientInputId = before.clientInputId
  /-- A row that is touched gets a new version. -/
  version : after = before ∨ before.version < after.version
  priority : after.priority = before.priority ∨ after.priority = .steer
  /-- Only the message of a follow-up is edited. -/
  content : after.content = before.content
    ∨ before.priority = .followUp ∧ ∃ message, after.content = .input (.userMessage message)
  ended : before.isActive = false → after.status = before.status
  consuming : after.status = .consuming →
    before.status = .consuming ∧ after.claimId = before.claimId
  holdsUp : before.HoldsUp → after.HoldsUp

namespace InputMove

theorem refl (row : MailboxRow) : InputMove row row where
  id := rfl
  clientInputId := rfl
  version := .inl rfl
  priority := .inl rfl
  content := .inl rfl
  ended := fun _ => rfl
  consuming := fun consuming => ⟨consuming, rfl⟩
  holdsUp := fun holds => holds

theorem atLeast {before after : MailboxRow} (move : InputMove before after) :
    before.version ≤ after.version := by
  rcases move.version with rfl | grows
  · exact Nat.le_refl _
  · exact Nat.le_of_lt grows

theorem trans {before middle after : MailboxRow} (first : InputMove before middle)
    (second : InputMove middle after) : InputMove before after where
  id := second.id.trans first.id
  clientInputId := second.clientInputId.trans first.clientInputId
  version := by
    rcases first.version with rfl | grows
    · exact second.version
    · exact .inr (Nat.lt_of_lt_of_le grows second.atLeast)
  priority := by
    rcases second.priority with same | steer
    · rw [same]
      exact first.priority
    · exact .inr steer
  content := by
    rcases second.content with same | ⟨followUp, edited⟩
    · rw [same]
      exact first.content
    · refine .inr ⟨?_, edited⟩
      rcases first.priority with same | steer
      · rw [← same, followUp]
      · rw [followUp] at steer
        cases steer
  ended := by
    intro ended
    have middleEnded : middle.isActive = false := by
      rw [isActive, first.ended ended]
      exact ended
    exact (second.ended middleEnded).trans (first.ended ended)
  consuming := by
    intro consuming
    obtain ⟨between, sameClaim⟩ := second.consuming consuming
    obtain ⟨prior, claim⟩ := first.consuming between
    exact ⟨prior, sameClaim.trans claim⟩
  holdsUp := fun holds => second.holdsUp (first.holdsUp holds)

end InputMove

variable {row : MailboxRow}

theorem MailboxRow.holdsUp_of_ended (ended : row.isActive = false) : row.HoldsUp := by
  intro active
  rw [ended] at active
  cases active

theorem MailboxRow.holdsUp_of_same {after : MailboxRow} (active : after.isActive = row.isActive)
    (kind : after.controlKind = row.controlKind)
    (interrupt : after.controlInterrupt = row.controlInterrupt)
    (phase : after.controlPhase = row.controlPhase) (holds : row.HoldsUp) : after.HoldsUp := by
  intro isActive isInterrupt
  rw [blocksMailbox, active, interrupt, phase]
  exact holds (active ▸ isActive) (kind ▸ isInterrupt)

theorem InputMove.edit {after : MailboxRow} (id : after.id = row.id)
    (clientInputId : after.clientInputId = row.clientInputId)
    (version : after.version = row.version + 1)
    (priority : after.priority = row.priority ∨ after.priority = .steer)
    (content : after.content = row.content) (active : row.isActive)
    (notConsuming : after.status ≠ .consuming) (holdsUp : row.HoldsUp → after.HoldsUp) :
    InputMove row after where
  id := id
  clientInputId := clientInputId
  version := .inr (by omega)
  priority := priority
  content := .inl content
  ended := by
    intro ended
    rw [active] at ended
    cases ended
  consuming := fun consuming => absurd consuming notConsuming
  holdsUp := holdsUp

/-- Every row takes a move. -/
def InputMoves (before after : List MailboxRow) : Prop :=
  ∃ change : MailboxRow → MailboxRow, after = before.map change
    ∧ ∀ row ∈ before, InputMove row (change row)

namespace InputMoves

variable {before middle after : List MailboxRow}

theorem refl (rows : List MailboxRow) : InputMoves rows rows :=
  ⟨id, (List.map_id rows).symm, fun row _ => .refl row⟩

theorem trans (first : InputMoves before middle) (second : InputMoves middle after) :
    InputMoves before after := by
  obtain ⟨change, rfl, moves⟩ := first
  obtain ⟨later, rfl, laterMoves⟩ := second
  refine ⟨later ∘ change, List.map_map, ?_⟩
  intro row mem
  exact (moves row mem).trans (laterMoves _ (mem_map_of_mem mem))

theorem of_admitted {rows : List MailboxRow} {admits : MailboxRow → Bool}
    {change : MailboxRow → MailboxRow} (moves : ∀ row, admits row → InputMove row (change row)) :
    InputMoves rows (rows.map fun row => if admits row then change row else row) := by
  refine ⟨_, rfl, ?_⟩
  intro row _
  split
  · exact moves row (by assumption)
  · exact .refl row

theorem updates {rows updated : List MailboxRow} {admits : MailboxRow → Bool}
    {change : MailboxRow → MailboxRow} (update : updateRows rows admits change = some updated)
    (moves : ∀ row, admits row → InputMove row (change row)) : InputMoves rows updated := by
  rw [updateRows] at update
  split at update
  · cases update
    exact .of_admitted moves
  · cases update

section

variable (moves : InputMoves before after)
include moves

theorem ids : after.map MailboxRow.id = before.map MailboxRow.id := by
  obtain ⟨_, rfl, each⟩ := moves
  rw [List.map_map]
  exact map_congr_left fun row mem => (each row mem).id

theorem clientInputIds :
    after.map MailboxRow.clientInputId = before.map MailboxRow.clientInputId := by
  obtain ⟨_, rfl, each⟩ := moves
  rw [List.map_map]
  exact map_congr_left fun row mem => (each row mem).clientInputId

theorem successor {row : MailboxRow} (mem : row ∈ before) : ∃ next ∈ after, InputMove row next := by
  obtain ⟨change, rfl, each⟩ := moves
  exact ⟨change row, mem_map_of_mem mem, each row mem⟩

theorem predecessor {next : MailboxRow} (mem : next ∈ after) :
    ∃ row ∈ before, InputMove row next := by
  obtain ⟨_, rfl, each⟩ := moves
  obtain ⟨row, inBefore, rfl⟩ := mem_map.mp mem
  exact ⟨row, inBefore, each row inBefore⟩

end

end InputMoves

theorem place_move (row : MailboxRow) (position : Nat) : InputMove row (row.place position) where
  id := rfl
  clientInputId := rfl
  version := .inr (Nat.lt_succ_self _)
  priority := .inl rfl
  content := .inl rfl
  ended := fun _ => rfl
  consuming := fun consuming => ⟨consuming, rfl⟩
  holdsUp := holdsUp_of_same rfl rfl rfl rfl

theorem numberRows_moves (admits : String × Nat → MailboxRow → Bool) (inputIds : List String)
    (rows : List MailboxRow) : InputMoves rows (numberRows admits inputIds rows) := by
  rw [numberRows_eq]
  refine ⟨_, rfl, ?_⟩
  intro row _
  apply number_keeps (motive := InputMove row) (.refl row)
  intro placed position move
  exact move.trans (place_move placed position)

theorem renumberFollowUps_moves (rows : List MailboxRow) :
    InputMoves rows (renumberFollowUps rows) :=
  numberRows_moves _ _ rows

theorem isQueuedFollowUp_active {inputId : String}
    (admitted : ChildSession.isQueuedFollowUp inputId row) : row.isActive := by
  simp only [ChildSession.isQueuedFollowUp, Bool.and_eq_true, beq_iff_eq] at admitted
  simp [isActive, admitted.1.2]

theorem isControlIn_active {inputId : String} {phase : SubagentControlPhase}
    (admitted : row.isControlIn inputId phase) : row.isActive := by
  simp only [isControlIn, Bool.and_eq_true, beq_iff_eq] at admitted
  simp [isActive, admitted.1.1.1.2]

namespace ChildSession

variable {child after : ChildSession} {inputId : String}

theorem promoteQueuedInput_moves (child : ChildSession) (inputId : String) (promotedAt : Nat) :
    InputMoves child.mailbox (child.promoteQueuedInput inputId promotedAt).mailbox := by
  apply InputMoves.of_admitted
  intro row admitted
  have active := isQueuedFollowUp_active admitted
  have queued : row.status ≠ .consuming := by
    simp only [isQueuedFollowUp, Bool.and_eq_true, beq_iff_eq] at admitted
    simp [admitted.1.2]
  refine .edit rfl rfl rfl (.inr rfl) rfl active queued ?_
  apply holdsUp_of_same
  · rfl
  all_goals
    simp only [controlKind, controlInterrupt, controlPhase]
    cases row.origin <;> rfl

theorem cancelQueuedInput_moves (child : ChildSession) (inputId : String) :
    InputMoves child.mailbox (child.cancelQueuedInput inputId).mailbox := by
  apply InputMoves.of_admitted
  intro row admitted
  exact .edit rfl rfl rfl (.inl rfl) rfl (isQueuedFollowUp_active admitted) nofun
    fun _ => holdsUp_of_ended rfl

variable {row : MailboxRow}

theorem settled_move {edit : InputOrigin → InputOrigin}
    (keeps : ∀ origin, (edit origin).controlKind = origin.controlKind)
    {phase : SubagentControlPhase} (admitted : row.isControlIn inputId phase) :
    InputMove row (row.change row.settledStatus edit) := by
  have active := isControlIn_active admitted
  have queued : row.status = .queued := by
    simp only [isControlIn, Bool.and_eq_true, beq_iff_eq] at admitted
    exact admitted.1.1.1.2
  refine .edit rfl rfl rfl (.inl rfl) rfl active ?_ ?_
  · rw [change, settledStatus]
    split <;> simp [queued]
  · intro _ isActive isInterrupt
    have sameKind : (row.change row.settledStatus edit).controlKind = row.controlKind := by
      rw [controlKind, controlKind, change]
      cases row.origin with
      | none => rfl
      | some origin => exact keeps origin
    rw [sameKind] at isInterrupt
    simp [MailboxRow.isActive, change, settledStatus, isInterrupt] at isActive

theorem settles_moves {before after : List MailboxRow} (settles : Settles inputId before after) :
    InputMoves before after := by
  obtain ⟨_, _, keeps, -, update⟩ := settles
  exact .updates update fun row admitted => settled_move (fun origin => (keeps origin).1) admitted

theorem applied_move {edit : InputOrigin → InputOrigin} (keeps : KeepsTarget edit)
    (applied : ∀ origin, (edit origin).controlPhase = some .interruptApplied)
    (queued : row.status = .queued) : InputMove row (row.change row.status edit) := by
  refine .edit rfl rfl rfl (.inl rfl) rfl ?_ ?_ ?_
  · simp [MailboxRow.isActive, queued]
  · simp [change, queued]
  · intro holds isActive isInterrupt
    cases hOrigin : row.origin with
    | none => simp [controlKind, change, hOrigin] at isInterrupt
    | some origin =>
      obtain ⟨kind, interrupt, -⟩ := keeps origin
      have edited : (row.change row.status edit).origin = some (edit origin) := by
        rw [change, hOrigin]
        rfl
      have wasInterrupt : row.controlKind = some .interrupt := by
        rw [controlKind, edited] at isInterrupt
        rw [controlKind, hOrigin]
        exact kind.symm.trans isInterrupt
      have blocked := holds isActive wasInterrupt
      simp only [blocksMailbox, controlInterrupt, hOrigin, bind_some, Bool.and_eq_true] at blocked
      have isActive' : (row.change row.status edit).isActive := isActive
      simp [blocksMailbox, controlInterrupt, controlPhase, edited,
        isActive', interrupt, applied origin, blocked.1.2]

theorem applies_moves {before after : List MailboxRow} (applies : Applies before after) :
    InputMoves before after := by
  obtain ⟨_, _, keeps, applied, waits, update⟩ := applies
  exact .updates update fun row admitted => applied_move keeps applied (waits row admitted).1

theorem applySubagentControlInterruptAtBoundary_moves {result : SubagentBoundaryInterruptResult}
    (applies : child.applySubagentControlInterruptAtBoundary inputId = .ok (result, after)) :
    InputMoves child.mailbox after.mailbox := by
  obtain same | settles | applied := applySubagentControlInterruptAtBoundary_mailbox applies
  · rw [same]
    exact .refl _
  · exact settles_moves settles
  · exact applies_moves applied

theorem consumes_active {input : TakenInput} (admitted : child.consumes input row) :
    row.isActive := by
  simp only [consumes, Bool.and_eq_true, Bool.or_eq_true, beq_iff_eq] at admitted
  rcases admitted.2 with ⟨⟨queued, -⟩, -⟩ | ⟨consuming, -⟩
  · simp [isActive, queued]
  · simp [isActive, consuming]

theorem consumeInput_inputMoves {input : TakenInput}
    (consumes : child.consumeInput input = some after) :
    InputMoves child.mailbox after.mailbox := by
  obtain ⟨_, update, rfl⟩ := map_eq_some_iff.mp consumes
  apply InputMoves.updates update
  intro row admitted
  refine .edit rfl rfl rfl (.inl rfl) rfl (consumes_active admitted) ?_ ?_
  · nofun
  · intro _
    exact holdsUp_of_ended rfl

theorem persistOutputs_moves {batch : ChildOutputBatch} {nowMs : Nat}
    (persists : child.persistOutputs batch nowMs = some after) :
    InputMoves child.mailbox after.mailbox := by
  apply persistOutputs_rows (motive := InputMoves child.mailbox) persists
  · exact fun _ => .refl _
  · intro input appended taken _ same consumes
    exact same ▸ consumeInput_inputMoves consumes
  · exact fun _ _ moves applied => moves.trans (applies_moves applied)

theorem enqueueScopedSubagentControl_fresh {request : ScopedSubagentControlRequest}
    {context : ControlContext} {result : EnqueuedControl}
    (sends : child.enqueueScopedSubagentControl request context = .ok (some (after, result)))
    (added : result.replayed = false) :
    child.mailbox.find? (·.clientInputId == some request.clientInputId) = none := by
  rw [enqueueScopedSubagentControl] at sends
  iterate 4
    split at sends
    · cases sends
  split at sends
  · cases sends
  · split at sends
    · cases sends
    · split at sends
      · split at sends
        · cases sends
        · rename_i replays
          cases sends
          rw [replayControl_replayed replays] at added
          cases added
      · assumption

theorem cancelActiveDelegationChildInputs_moves (child : ChildSession) :
    InputMoves child.mailbox child.cancelActiveDelegationChildInputs.mailbox := by
  apply InputMoves.of_admitted
  intro row active
  exact .edit rfl rfl rfl (.inl rfl) rfl active nofun fun _ => holdsUp_of_ended rfl

end ChildSession

inductive QueueOperation where
  | enqueueUserInput (request : EnqueueUserInput) (context : ControlContext)
  | enqueueScopedSubagentSteer (parentSessionId delegationId subagentId : String)
      (content : UserMessage) (clientInputId : String) (controlInterrupt : Bool)
      (context : ControlContext)
  | enqueueScopedSubagentInterrupt (parentSessionId delegationId subagentId clientInputId : String)
      (context : ControlContext)
  | enqueueDelegationObservation (observation : DaemonToolObservation) (clientInputId : String)
      (context : ControlContext)
  | promote (inputId : String) (promotedAt : Nat) (routeRead : Except String Unit)
  | update (inputId : String) (content : UserMessage) (expected : Option Int)
  | cancel (inputId : String) (expected : Option Int)
  | reorder (inputIds : List String) (expected : Option Int)
  | resetAbandonedConsumingInputs
  | resetConsumingInput (inputId claimId : String)
  | freezeLegacyRoutes (routeless : List String)
  | markSubagentControlReady (inputId : String)
  | skipStaleSubagentControlInterrupt (inputId : String)
  | applySubagentControlInterruptAtBoundary (inputId : String)
  | cancelActiveInputs
  | persistOutputs (batch : ChildOutputBatch) (accepted : Option AcceptedInput) (nowMs : Nat)
  /-- What is done to the session without its queue. -/
  | elsewhere (entries : List TranscriptStorageNode) (activeLeafId : Option EntryId)
      (actions : List MarkedAction) (delegation : Delegation) (transcriptChanged : Bool)

/-- The queue after a control; one that fails or finds nothing leaves it. -/
def SessionQueue.afterControl (queue : SessionQueue)
    (sent : Except String (Option (SessionQueue × EnqueuedControl))) : SessionQueue :=
  match sent with
  | .ok (some (after, _)) => after
  | .ok none | .error _ => queue

/-- A transaction that fails leaves the queue. -/
def SessionQueue.perform (queue : SessionQueue) : QueueOperation → SessionQueue
  | .enqueueUserInput request context =>
    ((queue.enqueueUserInput request context).map Prod.fst).toOption.getD queue
  | .enqueueScopedSubagentSteer parentSessionId delegationId subagentId content clientInputId
      controlInterrupt context =>
      queue.afterControl (queue.enqueueScopedSubagentSteer parentSessionId delegationId subagentId
        content clientInputId controlInterrupt context)
  | .enqueueScopedSubagentInterrupt parentSessionId delegationId subagentId clientInputId context =>
    queue.afterControl (queue.enqueueScopedSubagentInterrupt parentSessionId delegationId
      subagentId clientInputId context)
  | .enqueueDelegationObservation observation clientInputId context =>
    (queue.enqueueDelegationObservation observation clientInputId context).toOption.getD queue
  | .promote inputId promotedAt routeRead =>
    ((queue.promoteQueuedInput inputId promotedAt routeRead).map Prod.fst).toOption.getD queue
  | .update inputId content expected =>
    ((queue.updateQueuedInput inputId content expected).map Prod.fst).toOption.getD queue
  | .cancel inputId expected =>
    ((queue.cancelQueuedInput inputId expected).map Prod.fst).toOption.getD queue
  | .reorder inputIds expected => (queue.reorderQueuedFollowUps inputIds expected).1
  | .resetAbandonedConsumingInputs => queue.resetAbandonedConsumingInputs
  | .resetConsumingInput inputId claimId => queue.resetConsumingInput inputId claimId
  | .freezeLegacyRoutes routeless => queue.freezeLegacyRoutes routeless
  | .markSubagentControlReady inputId =>
    (queue.markSubagentControlReady inputId).toOption.getD queue
  | .skipStaleSubagentControlInterrupt inputId =>
    (queue.skipStaleSubagentControlInterrupt inputId).toOption.getD queue
  | .applySubagentControlInterruptAtBoundary inputId =>
    ((queue.applySubagentControlInterruptAtBoundary inputId).map Prod.snd).toOption.getD queue
  | .cancelActiveInputs => queue.cancelActiveInputs
  | .persistOutputs batch accepted nowMs => (queue.persistOutputs batch accepted nowMs).getD queue
  | .elsewhere entries activeLeafId actions delegation transcriptChanged =>
    ({ queue with
      session := { queue.session with entries, activeLeafId, actions, delegation } }).bumpRevisions
        false transcriptChanged

def QueueOperation.drawn : QueueOperation → Option String
  | .enqueueUserInput _ context | .enqueueScopedSubagentSteer _ _ _ _ _ _ context
  | .enqueueScopedSubagentInterrupt _ _ _ _ context
  | .enqueueDelegationObservation _ _ context => some context.inputId
  | .persistOutputs _ accepted _ => accepted.map AcceptedInput.inputId
  | _ => none

def QueueOperation.observes : QueueOperation → Option String
  | .enqueueDelegationObservation _ clientInputId _ => some clientInputId
  | _ => none

def MailboxRow.isObservation (row : MailboxRow) : Bool :=
  match row.content with
  | .input (.daemonToolObservation _) => true
  | _ => false

/-- A row that comes into a mailbox; an observation comes in under an id that is meant for
it. -/
structure NewInput (rows : List MailboxRow) (observes : Option String) (row : MailboxRow) :
    Prop where
  fresh : row.id ∉ rows.map MailboxRow.id
  clientInputId : ∀ clientInputId, row.clientInputId = some clientInputId →
    some clientInputId ∉ rows.map MailboxRow.clientInputId
  notConsuming : row.status ≠ .consuming
  holdsUp : row.HoldsUp
  observation : row.isObservation = true →
    row.clientInputId = observes ∧ observes.isSome = true

/-- The rows of a mailbox take moves, and there is at most one new row. -/
def Proceeds (observes : Option String) (before after : List MailboxRow) : Prop :=
  ∃ moved, InputMoves before moved
    ∧ (after = moved ∨ ∃ row, after = moved ++ [row] ∧ NewInput before observes row)

namespace Proceeds

variable {observes : Option String} {before after : List MailboxRow}

theorem moves (moves : InputMoves before after) : Proceeds observes before after :=
  ⟨after, moves, .inl rfl⟩

theorem refl (rows : List MailboxRow) : Proceeds observes rows rows := .moves (.refl _)

theorem adds {row : MailboxRow} (added : after = before ++ [row])
    (new : NewInput before observes row) : Proceeds observes before after :=
  ⟨before, .refl _, .inr ⟨row, added, new⟩⟩

theorem clientInputIds (proceeds : Proceeds observes before after)
    (distinct : (before.filterMap MailboxRow.clientInputId).Nodup) :
    (after.filterMap MailboxRow.clientInputId).Nodup := by
  have named : ∀ rows : List MailboxRow, rows.filterMap clientInputId =
      (rows.map clientInputId).filterMap id := by
    intro rows
    rw [filterMap_map]
    rfl
  obtain ⟨moved, moves, recorded⟩ := proceeds
  have keeps : (moved.filterMap clientInputId).Nodup := by
    rw [named, moves.clientInputIds, ← named]
    exact distinct
  rcases recorded with same | ⟨row, added, new⟩
  · rw [same]
    exact keeps
  · rw [added, filterMap_append, nodup_append]
    refine ⟨keeps, ?_, ?_⟩
    · cases hNamed : row.clientInputId with
      | none | some => simp [hNamed]
    · intro one hOne other hOther same
      obtain ⟨_, isNew, named⟩ := mem_filterMap.mp hOther
      obtain rfl := mem_singleton.mp isNew
      obtain ⟨_, inMoved, priorNamed⟩ := mem_filterMap.mp hOne
      have inMailbox := mem_map_of_mem (f := clientInputId) inMoved
      rw [moves.clientInputIds, priorNamed, same] at inMailbox
      exact new.clientInputId other named inMailbox

end Proceeds

namespace SessionQueue

def step (queue : SessionQueue) (operation : QueueOperation) : Option SessionQueue :=
  if operation.drawn.any fun inputId => queue.mailbox.any (·.id == inputId) then none
  else some (queue.perform operation)

variable {queue after : SessionQueue} {clientInputId inputId : String} {context : ControlContext}
    {observes : Option String} {expected : Option Int} {row : MailboxRow}

theorem findClientInput_none (missing : queue.findClientInput clientInputId = none) :
    some clientInputId ∉ queue.mailbox.map MailboxRow.clientInputId := by
  intro mem
  obtain ⟨row, inMailbox, same⟩ := mem_map.mp mem
  rw [findClientInput, find?_eq_none] at missing
  exact missing row inMailbox (by simp [same])

theorem enqueueUserInput_cases {request : EnqueueUserInput} {result : EnqueueUserInputResult}
    (enqueues : queue.enqueueUserInput request context = .ok (after, result)) :
    after = queue ∧ result.replayed
      ∨ after = (queue.withMailbox
          (queue.mailbox ++ [queue.userInputRow request context])).bumpRevisions true false
        ∧ result.replayed = false
        ∧ ∀ clientInputId, request.clientInputId = some clientInputId →
          queue.findClientInput clientInputId = none := by
  rw [enqueueUserInput] at enqueues
  split at enqueues
  · cases enqueues
  split at enqueues
  · cases enqueues
    exact .inl ⟨rfl, rfl⟩
  · rename_i missing
    split at enqueues
    · cases enqueues
    split at enqueues
    · cases enqueues
    cases enqueues
    refine .inr ⟨rfl, rfl, ?_⟩
    intro clientInputId asked
    rwa [asked, bind_some] at missing

theorem userInputRow_holdsUp (queue : SessionQueue) (request : EnqueueUserInput)
    (context : ControlContext) : (queue.userInputRow request context).HoldsUp := by
  intro _ isInterrupt
  rw [userInputRow, controlKind] at isInterrupt
  cases hPriority : request.priority with
  | steer | followUp =>
    rw [hPriority] at isInterrupt
    cases isInterrupt

theorem afterControl_cases (queue : SessionQueue) (request : ScopedSubagentControlRequest)
    (context : ControlContext) :
    queue.afterControl (queue.enqueueScopedSubagentControl request context) = queue
      ∨ queue.afterControl (queue.enqueueScopedSubagentControl request context) =
          (queue.withMailbox (queue.mailbox ++ [queue.session.controlRow request context])
            ).bumpRevisions true false
        ∧ queue.findClientInput request.clientInputId = none := by
  rw [enqueueScopedSubagentControl]
  cases sends : queue.session.enqueueScopedSubagentControl request context with
  | error => exact .inl rfl
  | ok sent =>
    cases sent with
    | none => exact .inl rfl
    | some sent =>
      obtain ⟨_, _⟩ := sent
      obtain ⟨rfl, replayed⟩ | ⟨rfl, notReplayed, -, -⟩ := enqueueScopedSubagentControl_some sends
      · simp only [replayed, if_true]
        exact .inl rfl
      · simp only [notReplayed, Bool.false_eq_true, if_false]
        refine .inr ⟨rfl, ?_⟩
        exact enqueueScopedSubagentControl_fresh sends notReplayed

theorem controlRow_new {request : ScopedSubagentControlRequest}
    (fresh : context.inputId ∉ queue.mailbox.map MailboxRow.id)
    (missing : queue.findClientInput request.clientInputId = none)
    (interrupts : request.kind = .interrupt → request.interrupt) :
    NewInput queue.mailbox observes (queue.session.controlRow request context) where
  fresh := fresh
  clientInputId := by
    intro clientInputId named
    cases named
    exact findClientInput_none missing
  notConsuming := nofun
  holdsUp := by
    intro _ isInterrupt
    have kind := Option.some.inj isInterrupt
    simp [blocksMailbox, isActive, controlRow, controlInterrupt, controlPhase, interrupts kind]
  observation := by
    intro isObservation
    rw [MailboxRow.isObservation, controlRow,
      ScopedSubagentControlRequest.mailboxContent] at isObservation
    cases hContent : request.content with
    | none | some => simp [hContent] at isObservation

theorem enqueueDelegationObservation_cases {observation : DaemonToolObservation}
    (enqueues : queue.enqueueDelegationObservation observation clientInputId context = .ok after) :
    after = queue ∧ some clientInputId ∈ queue.mailbox.map MailboxRow.clientInputId
      ∨ after = (queue.withMailbox
          (queue.mailbox ++ [observationRow observation clientInputId context])).bumpRevisions
            true false
        ∧ queue.findClientInput clientInputId = none := by
  rw [enqueueDelegationObservation] at enqueues
  split at enqueues
  · cases enqueues
  · split at enqueues
    · rename_i row found
      cases enqueues
      refine .inl ⟨rfl, mem_map.mpr ⟨row, mem_of_find?_eq_some found, ?_⟩⟩
      simpa using find?_some found
    · rename_i missing
      cases enqueues
      exact .inr ⟨rfl, missing⟩

theorem promoteQueuedInput_cases {promotedAt : Nat} {routeRead : Except String Unit}
    {result : PromoteQueuedInputResult}
    (promotes : queue.promoteQueuedInput inputId promotedAt routeRead = .ok (after, result)) :
    after = queue ∧ result.promoted = false
        ∧ queue.mailbox.any (ChildSession.isQueuedFollowUp inputId) = false
      ∨ after = (queue.withMailbox (renumberFollowUps
          (queue.session.promoteQueuedInput inputId promotedAt).mailbox)).bumpRevisions true false
        ∧ result.promoted
        ∧ queue.mailbox.any (ChildSession.isQueuedFollowUp inputId) := by
  rw [promoteQueuedInput.eq_def] at promotes
  split at promotes
  · cases promotes
  · split at promotes
    · rename_i waits
      cases promotes
      exact .inr ⟨rfl, rfl, waits⟩
    · rename_i nothing
      split at promotes
      · cases promotes
      · cases promotes
        exact .inl ⟨rfl, rfl, by simpa using nothing⟩

theorem checkEdit_cases {found : MailboxRow ⊕ EditQueuedInputResult}
    (checked : queue.checkEdit inputId expected = .ok found) :
    (∃ refused, found = .inr refused ∧ refused.edited = false
        ∧ (queue.revisionMismatch expected ∨ ∃ row ∈ queue.mailbox, row.id = inputId
          ∧ row.isQueuedFollowUp = false))
      ∨ ∃ row, found = .inl row ∧ queue.revisionMismatch expected = false
        ∧ queue.mailbox.any (ChildSession.isQueuedFollowUp inputId) := by
  rw [checkEdit] at checked
  split at checked
  · rename_i mismatch
    cases checked
    exact .inl ⟨_, rfl, rfl, .inl mismatch⟩
  · rename_i matched
    split at checked
    · cases checked
    · rename_i row found
      have mem := mem_of_find?_eq_some found
      have named : row.id = inputId := by simpa using find?_some found
      split at checked
      · rename_i other
        cases checked
        exact .inl ⟨_, rfl, rfl, .inr ⟨row, mem, named, by simpa using other⟩⟩
      · rename_i followUp
        cases checked
        rw [Bool.not_eq_true', Bool.not_eq_false, isQueuedFollowUp_iff] at followUp
        refine .inr ⟨row, rfl, by simpa using matched, List.any_eq_true.mpr ⟨row, mem, ?_⟩⟩
        simp [ChildSession.isQueuedFollowUp, named, followUp]

def edited (queue : SessionQueue) (inputId : String) (content : UserMessage) : SessionQueue :=
  (queue.withMailbox (queue.mailbox.map fun row =>
    if ChildSession.isQueuedFollowUp inputId row then
      { row with
        content := .input (.userMessage content)
        origin := some (row.origin.getD {})
        version := row.version + 1 }
    else row)).bumpRevisions true false

theorem updateQueuedInput_cases {content : UserMessage} {result : EditQueuedInputResult}
    (updates : queue.updateQueuedInput inputId content expected = .ok (after, result)) :
    after = queue ∧ result.edited = false
      ∨ after = queue.edited inputId content ∧ result.edited
        ∧ queue.revisionMismatch expected = false
        ∧ queue.mailbox.any (ChildSession.isQueuedFollowUp inputId) := by
  rw [updateQueuedInput] at updates
  split at updates
  · cases updates
  · rename_i refused checked
    cases updates
    obtain ⟨answer, same, refusal, -⟩ | ⟨row, same, -⟩ := checkEdit_cases checked
    · cases same
      exact .inl ⟨rfl, refusal⟩
    · cases same
  · rename_i row checked
    obtain ⟨answer, same, -⟩ | ⟨-, -, matched, waits⟩ := checkEdit_cases checked
    · cases same
    · split at updates
      · cases updates
        exact .inl ⟨rfl, rfl⟩
      · cases updates
        exact .inr ⟨rfl, rfl, matched, waits⟩

theorem cancelQueuedInput_cases {result : EditQueuedInputResult}
    (cancels : queue.cancelQueuedInput inputId expected = .ok (after, result)) :
    after = queue ∧ result.edited = false
        ∧ (queue.revisionMismatch expected ∨ ∃ row ∈ queue.mailbox, row.id = inputId
          ∧ row.isQueuedFollowUp = false)
      ∨ after = (queue.withMailbox (renumberFollowUps
          (queue.session.cancelQueuedInput inputId).mailbox)).bumpRevisions true false
        ∧ result.edited ∧ queue.revisionMismatch expected = false
        ∧ queue.mailbox.any (ChildSession.isQueuedFollowUp inputId) := by
  rw [cancelQueuedInput] at cancels
  split at cancels
  · cases cancels
  · rename_i refused checked
    cases cancels
    obtain ⟨answer, same, refusal, why⟩ | ⟨row, same, -⟩ := checkEdit_cases checked
    · cases same
      exact .inl ⟨rfl, refusal, why⟩
    · cases same
  · rename_i row checked
    obtain ⟨answer, same, -⟩ | ⟨-, -, matched, waits⟩ := checkEdit_cases checked
    · cases same
    · cases cancels
      exact .inr ⟨rfl, rfl, matched, waits⟩

theorem reorderQueuedFollowUps_cases (queue : SessionQueue) (inputIds : List String)
    (expected : Option Int) :
    (queue.reorderQueuedFollowUps inputIds expected).1 = queue
        ∧ (queue.reorderQueuedFollowUps inputIds expected).2.reordered = false
        ∧ (queue.revisionMismatch expected ∨ queuedFollowUpIds queue.mailbox = inputIds
          ∨ ¬ inputIds.Perm (queuedFollowUpIds queue.mailbox))
      ∨ (queue.reorderQueuedFollowUps inputIds expected).1 =
          (queue.withMailbox (placeFollowUps inputIds queue.mailbox)).bumpRevisions true false
        ∧ (queue.reorderQueuedFollowUps inputIds expected).2.reordered
        ∧ queue.revisionMismatch expected = false
        ∧ inputIds.Perm (queuedFollowUpIds queue.mailbox) := by
  rw [reorderQueuedFollowUps]
  by_cases mismatch : queue.revisionMismatch expected
  · rw [if_pos mismatch]
    exact .inl ⟨rfl, rfl, .inl mismatch⟩
  rw [if_neg mismatch]
  by_cases same : queuedFollowUpIds queue.mailbox = inputIds
  · rw [if_pos same]
    exact .inl ⟨rfl, rfl, .inr (.inl same)⟩
  rw [if_neg same]
  have sorted := perm_insertionSort (fun one other : String => one ≤ other)
  by_cases listed : (queuedFollowUpIds queue.mailbox).insertionSort (· ≤ ·) =
      inputIds.insertionSort (· ≤ ·)
  · rw [if_neg (not_not.mpr listed)]
    refine .inr ⟨rfl, rfl, by simpa using mismatch, ?_⟩
    have perm := sorted (queuedFollowUpIds queue.mailbox)
    rw [listed] at perm
    exact (sorted inputIds).symm.trans perm
  · rw [if_pos listed]
    refine .inl ⟨rfl, rfl, .inr (.inr fun perm => listed ?_)⟩
    have ascends : ∀ ids : List String, (ids.insertionSort (· ≤ ·)).Pairwise (· ≤ ·) :=
      fun ids => pairwise_insertionSort _ ids
    have same := (sorted (queuedFollowUpIds queue.mailbox)).trans
      (perm.symm.trans (sorted inputIds).symm)
    exact same.eq_of_pairwise (fun _ _ _ _ => le_antisymm) (ascends _) (ascends _)

theorem resetConsuming_cases (queue : SessionQueue) (admits : MailboxRow → Bool) :
    queue.resetConsuming admits = queue ∧ queue.mailbox.any admits = false
      ∨ ∃ rows, updateRows queue.mailbox admits (fun row =>
          { row with
            status := .queued
            origin := some { row.origin.getD {} with claimId := none }
            version := row.version + 1 }) = some rows
        ∧ queue.resetConsuming admits =
          (queue.withMailbox (renumberFollowUps rows)).bumpRevisions true false := by
  rw [resetConsuming]
  split
  · rename_i missed
    refine .inl ⟨rfl, ?_⟩
    rw [updateRows] at missed
    split at missed
    · cases missed
    · rename_i unreached
      exact Bool.eq_false_of_not_eq_true unreached
  · rename_i rows updated
    exact .inr ⟨rows, updated, rfl⟩

theorem reset_move (consuming : row.status = .consuming) :
    InputMove row
      { row with
        status := .queued
        origin := some { row.origin.getD {} with claimId := none }
        version := row.version + 1 } := by
  have active : row.isActive := by simp [isActive, consuming]
  refine .edit rfl rfl rfl (.inl rfl) rfl active nofun ?_
  apply holdsUp_of_same
  · rw [active]
    rfl
  all_goals
    simp only [controlKind, controlInterrupt, controlPhase]
    cases row.origin <;> rfl

theorem resetConsuming_moves (queue : SessionQueue) {admits : MailboxRow → Bool}
    (only : ∀ row, admits row → row.status = .consuming) :
    InputMoves queue.mailbox (queue.resetConsuming admits).mailbox := by
  rcases queue.resetConsuming_cases admits with ⟨same, -⟩ | ⟨rows, updated, reset⟩
  · rw [same]
    exact .refl _
  · rw [reset]
    exact (InputMoves.updates updated fun row admitted => reset_move (only row admitted)).trans
      (renumberFollowUps_moves rows)

theorem edit_move (content : UserMessage) (admitted : ChildSession.isQueuedFollowUp inputId row) :
    InputMove row
      { row with
        content := .input (.userMessage content)
        origin := some (row.origin.getD {})
        version := row.version + 1 } where
  id := rfl
  clientInputId := rfl
  version := .inr (Nat.lt_succ_self _)
  priority := .inl rfl
  content := by
    simp only [ChildSession.isQueuedFollowUp, Bool.and_eq_true, beq_iff_eq] at admitted
    exact .inr ⟨admitted.2, content, rfl⟩
  ended := fun _ => rfl
  consuming := by
    intro consuming
    simp only [ChildSession.isQueuedFollowUp, Bool.and_eq_true, beq_iff_eq] at admitted
    have same : row.status = .consuming := consuming
    rw [admitted.1.2] at same
    cases same
  holdsUp := by
    apply holdsUp_of_same
    · rfl
    all_goals
      simp only [controlKind, controlInterrupt, controlPhase]
      cases row.origin <;> rfl

theorem freeze_move (row : MailboxRow) : InputMove row { row with version := row.version + 1 } where
  id := rfl
  clientInputId := rfl
  version := .inr (Nat.lt_succ_self _)
  priority := .inl rfl
  content := .inl rfl
  ended := fun _ => rfl
  consuming := fun consuming => ⟨consuming, rfl⟩
  holdsUp := holdsUp_of_same rfl rfl rfl rfl

theorem persistOutputs_cases {batch : ChildOutputBatch} {accepted : Option AcceptedInput}
    {nowMs : Nat} (persists : queue.persistOutputs batch accepted nowMs = some after) :
    ∃ session, queue.session.persistOutputs batch nowMs = some session
      ∧ (after.mailbox = session.mailbox
        ∨ ∃ input clientInputId, accepted = some input ∧ input.clientInputId = some clientInputId
          ∧ ({ queue with session } : SessionQueue).findClientInput clientInputId = none
          ∧ after.mailbox = session.mailbox ++ [acceptedRow input clientInputId])
      ∧ (after.queueRevision = queue.queueRevision + batch.consumedInput.isSome.toNat) := by
  obtain ⟨session, hSession, persists⟩ := bind_eq_some_iff.mp persists
  obtain ⟨recorded, records, persists⟩ := map_eq_some_iff.mp persists
  refine ⟨session, hSession, ?_⟩
  have final : after.mailbox = recorded.mailbox
      ∧ after.queueRevision = recorded.queueRevision + batch.consumedInput.isSome.toNat := by
    split at persists
    · rw [← persists]
      exact ⟨rfl, rfl⟩
    · rename_i quiet
      have notConsumed : batch.consumedInput.isSome = false := by
        by_contra consumed
        exact quiet (by simp [sessionChanged, consumed])
      rw [← persists, notConsumed]
      exact ⟨rfl, rfl⟩
  rw [final.1, final.2]
  cases accepted with
  | none =>
    cases records
    exact ⟨.inl rfl, rfl⟩
  | some input =>
    rw [recordAcceptedInput] at records
    split at records
    · cases records
      exact ⟨.inl rfl, rfl⟩
    · rename_i clientInputId named
      split at records
      · cases records
      · rename_i missing
        cases records
        exact ⟨.inr ⟨input, clientInputId, rfl, named, missing, rfl⟩, rfl⟩

theorem persistOutputs_proceeds {batch : ChildOutputBatch} {accepted : Option AcceptedInput}
    {nowMs : Nat}
    (fresh : ∀ input, accepted = some input → input.inputId ∉ queue.mailbox.map MailboxRow.id)
    (persists : queue.persistOutputs batch accepted nowMs = some after) :
    Proceeds observes queue.mailbox after.mailbox := by
  obtain ⟨session, persisted, recorded, -⟩ := persistOutputs_cases persists
  have moves := persistOutputs_moves persisted
  obtain same | ⟨input, _, rfl, -, missing, added⟩ := recorded
  · exact ⟨session.mailbox, moves, .inl same⟩
  · refine ⟨session.mailbox, moves, .inr ⟨_, added, fresh input rfl, ?_, nofun, ?_, nofun⟩⟩
    · intro named same
      cases same
      have absent := findClientInput_none missing
      rw [mailbox, moves.clientInputIds] at absent
      exact absent
    · exact holdsUp_of_ended rfl

/-- What an operation does to the queue, if it does anything. -/
inductive Performs (queue : SessionQueue) : QueueOperation → SessionQueue → Prop
  | nothing {operation : QueueOperation} : Performs queue operation queue
  | adds {operation : QueueOperation} {row : MailboxRow}
      (new : NewInput queue.mailbox operation.observes row) :
      Performs queue operation
        ((queue.withMailbox (queue.mailbox ++ [row])).bumpRevisions true false)
  | promotes {inputId : String} {promotedAt : Nat} {routeRead : Except String Unit} :
      Performs queue (.promote inputId promotedAt routeRead)
        ((queue.withMailbox (renumberFollowUps
          (queue.session.promoteQueuedInput inputId promotedAt).mailbox)).bumpRevisions true false)
  | edits {inputId : String} {content : UserMessage} {expected : Option Int} :
      Performs queue (.update inputId content expected) (queue.edited inputId content)
  | cancels {inputId : String} {expected : Option Int} :
      Performs queue (.cancel inputId expected)
        ((queue.withMailbox (renumberFollowUps
          (queue.session.cancelQueuedInput inputId).mailbox)).bumpRevisions true false)
  | reorders {inputIds : List String} {expected : Option Int} :
      Performs queue (.reorder inputIds expected)
        ((queue.withMailbox (placeFollowUps inputIds queue.mailbox)).bumpRevisions true false)
  | resets {operation : QueueOperation} {admits : MailboxRow → Bool}
      (only : ∀ row, admits row = true → row.status = .consuming) :
      Performs queue operation (queue.resetConsuming admits)
  | freezes {routeless : List String} :
      Performs queue (.freezeLegacyRoutes routeless) (queue.freezeLegacyRoutes routeless)
  | marks {inputId : String} {session : ChildSession}
      (settles : Settles inputId queue.mailbox session.mailbox) :
      Performs queue (.markSubagentControlReady inputId)
        (({ queue with session } : SessionQueue).bumpRevisions true false)
  | skips {inputId : String} {session : ChildSession}
      (settles : Settles inputId queue.mailbox session.mailbox) :
      Performs queue (.skipStaleSubagentControlInterrupt inputId)
        (({ queue with session } : SessionQueue).bumpRevisions true false)
  | applies {inputId : String} {result : SubagentBoundaryInterruptResult} {session : ChildSession}
      (applies : queue.session.applySubagentControlInterruptAtBoundary inputId =
        .ok (result, session)) :
      Performs queue (.applySubagentControlInterruptAtBoundary inputId)
        (({ queue with session } : SessionQueue).bumpRevisions true false)
  | cancelsActive :
      Performs queue .cancelActiveInputs
        (({ queue with session := queue.session.cancelActiveDelegationChildInputs } :
          SessionQueue).bumpRevisions true false)
  | persists {batch : ChildOutputBatch} {accepted : Option AcceptedInput} {nowMs : Nat}
      {after : SessionQueue}
      (fresh : ∀ input, accepted = some input →
        input.inputId ∉ queue.mailbox.map MailboxRow.id)
      (persists : queue.persistOutputs batch accepted nowMs = some after) :
      Performs queue (.persistOutputs batch accepted nowMs) after
  | elsewhere {entries : List TranscriptStorageNode} {activeLeafId : Option EntryId}
      {actions : List MarkedAction} {delegation : Delegation} {transcriptChanged : Bool} :
      Performs queue (.elsewhere entries activeLeafId actions delegation transcriptChanged)
        (queue.perform (.elsewhere entries activeLeafId actions delegation transcriptChanged))

variable {operation : QueueOperation}

theorem afterControl_performs {request : ScopedSubagentControlRequest}
    (fresh : context.inputId ∉ queue.mailbox.map MailboxRow.id)
    (interrupts : request.kind = .interrupt → request.interrupt) :
    queue.Performs operation
      (queue.afterControl (queue.enqueueScopedSubagentControl request context)) := by
  rcases queue.afterControl_cases request context with same | ⟨added, missing⟩
  · rw [same]
    exact .nothing
  · rw [added]
    exact .adds (controlRow_new fresh missing interrupts)

/-- What one operation does to the rows of the queue. -/
theorem performs_of_step (stepped : queue.step operation = some after) :
    queue.Performs operation after := by
  rw [step] at stepped
  split at stepped
  · cases stepped
  rename_i fresh
  cases stepped
  have isFresh : ∀ inputId, operation.drawn = some inputId →
      inputId ∉ queue.mailbox.map MailboxRow.id := by
    intro inputId drawn mem
    obtain ⟨row, inMailbox, rfl⟩ := mem_map.mp mem
    exact fresh (by simpa [drawn] using ⟨row, inMailbox, rfl⟩)
  cases operation with
  | enqueueUserInput request context =>
    rw [perform]
    cases enqueues : queue.enqueueUserInput request context with
    | error => exact .nothing
    | ok enqueued =>
      obtain ⟨after, result⟩ := enqueued
      obtain ⟨rfl, -⟩ | ⟨rfl, -, missing⟩ := enqueueUserInput_cases enqueues
      · exact .nothing
      · refine .adds ⟨isFresh _ rfl, ?_, nofun, queue.userInputRow_holdsUp request context, nofun⟩
        intro clientInputId named
        exact findClientInput_none (missing clientInputId named)
  | enqueueScopedSubagentSteer => exact afterControl_performs (isFresh _ rfl) nofun
  | enqueueScopedSubagentInterrupt => exact afterControl_performs (isFresh _ rfl) fun _ => rfl
  | enqueueDelegationObservation observation clientInputId context =>
    rw [perform]
    cases enqueues : queue.enqueueDelegationObservation observation clientInputId context with
    | error => exact .nothing
    | ok =>
      obtain ⟨rfl, -⟩ | ⟨rfl, missing⟩ := enqueueDelegationObservation_cases enqueues
      · exact .nothing
      · refine .adds ⟨isFresh _ rfl, ?_, nofun, fun _ => nofun, fun _ => ⟨rfl, rfl⟩⟩
        intro named same
        cases same
        exact findClientInput_none missing
  | promote inputId promotedAt routeRead =>
    rw [perform]
    cases promotes : queue.promoteQueuedInput inputId promotedAt routeRead with
    | error => exact .nothing
    | ok promoted =>
      obtain ⟨after, result⟩ := promoted
      obtain ⟨rfl, -, -⟩ | ⟨rfl, -, -⟩ := promoteQueuedInput_cases promotes
      · exact .nothing
      · exact .promotes
  | update inputId content expected =>
    rw [perform]
    cases updates : queue.updateQueuedInput inputId content expected with
    | error => exact .nothing
    | ok updated =>
      obtain ⟨after, result⟩ := updated
      obtain ⟨rfl, -⟩ | ⟨rfl, -, -⟩ := updateQueuedInput_cases updates
      · exact .nothing
      · exact .edits
  | cancel inputId expected =>
    rw [perform]
    cases cancels : queue.cancelQueuedInput inputId expected with
    | error => exact .nothing
    | ok cancelled =>
      obtain ⟨after, result⟩ := cancelled
      obtain ⟨rfl, -, -⟩ | ⟨rfl, -, -⟩ := cancelQueuedInput_cases cancels
      · exact .nothing
      · exact .cancels
  | reorder inputIds expected =>
    rw [perform]
    rcases queue.reorderQueuedFollowUps_cases inputIds expected with
      ⟨same, -⟩ | ⟨reordered, -, -, -⟩
    · rw [same]
      exact .nothing
    · rw [reordered]
      exact .reorders
  | resetAbandonedConsumingInputs => exact .resets fun row admitted => by simpa using admitted
  | resetConsumingInput =>
    rw [perform, resetConsumingInput]
    split
    · exact .nothing
    · apply Performs.resets
      intro row admitted
      simp only [Bool.and_eq_true, beq_iff_eq] at admitted
      exact admitted.1.2
  | freezeLegacyRoutes => exact .freezes
  | markSubagentControlReady inputId =>
    rw [perform, markSubagentControlReady]
    cases marks : queue.session.markSubagentControlReady inputId with
    | error => exact .nothing
    | ok => exact .marks (markSubagentControlReady_settles marks)
  | skipStaleSubagentControlInterrupt inputId =>
    rw [perform, skipStaleSubagentControlInterrupt]
    cases settles : queue.session.skipStaleSubagentControlInterrupt inputId with
    | error => exact .nothing
    | ok => exact .skips (settleStaleSubagentControl_settles settles)
  | applySubagentControlInterruptAtBoundary inputId =>
    rw [perform, applySubagentControlInterruptAtBoundary]
    cases applies : queue.session.applySubagentControlInterruptAtBoundary inputId with
    | error => exact .nothing
    | ok applied =>
      obtain ⟨result, _⟩ := applied
      cases result with
      | notAtBoundary => exact .nothing
      | applied | generationAdvanced => exact .applies applies
  | cancelActiveInputs =>
    rw [perform, cancelActiveInputs]
    split
    · exact .cancelsActive
    · exact .nothing
  | persistOutputs batch accepted nowMs =>
    rw [perform]
    cases persists : queue.persistOutputs batch accepted nowMs with
    | none => exact .nothing
    | some =>
      refine .persists ?_ persists
      rintro input rfl
      exact isFresh input.inputId rfl
  | elsewhere => exact .elsewhere

/-- Whatever is done, rows take moves and at most one row comes in. -/
theorem step_proceeds (stepped : queue.step operation = some after) :
    Proceeds operation.observes queue.mailbox after.mailbox := by
  cases performs_of_step stepped with
  | nothing => exact .refl _
  | adds new => exact .adds rfl new
  | promotes =>
    exact .moves ((queue.session.promoteQueuedInput_moves _ _).trans (renumberFollowUps_moves _))
  | edits => exact .moves (InputMoves.of_admitted fun row admitted => edit_move _ admitted)
  | cancels =>
    exact .moves ((queue.session.cancelQueuedInput_moves _).trans (renumberFollowUps_moves _))
  | reorders => exact .moves (numberRows_moves _ _ _)
  | resets only => exact .moves (queue.resetConsuming_moves only)
  | freezes => exact .moves (.of_admitted fun row _ => freeze_move row)
  | marks settles | skips settles => exact .moves (settles_moves settles)
  | applies applies =>
    exact .moves (applySubagentControlInterruptAtBoundary_moves applies)
  | cancelsActive => exact .moves queue.session.cancelActiveDelegationChildInputs_moves
  | persists fresh persists => exact persistOutputs_proceeds fresh persists
  | elsewhere => exact .moves (.refl _)

/-- Ids and client ids are unique, interrupts that wait hold up the queue, and whoever is
consuming an input has claimed it by name. -/
structure SoundQueue (queue : SessionQueue) : Prop where
  ids : (queue.mailbox.map MailboxRow.id).Nodup
  clientInputIds : (queue.mailbox.filterMap MailboxRow.clientInputId).Nodup
  holdsUp : ∀ row ∈ queue.mailbox, row.HoldsUp
  claimed : ∀ row ∈ queue.mailbox, row.status = .consuming → row.claimId ≠ some ""

def queues : Machine SessionQueue QueueOperation := .ofSteps SoundQueue step

theorem SoundQueue.proceeds (sound : SoundQueue queue)
    (proceeds : Proceeds observes queue.mailbox after.mailbox) : SoundQueue after := by
  have clientInputIds := proceeds.clientInputIds sound.clientInputIds
  obtain ⟨moved, moves, recorded⟩ := proceeds
  have ids : (moved.map MailboxRow.id).Nodup := by
    rw [moves.ids]
    exact sound.ids
  have holdsUp : ∀ row ∈ moved, row.HoldsUp := by
    intro row mem
    obtain ⟨prior, inMailbox, move⟩ := moves.predecessor mem
    exact move.holdsUp (sound.holdsUp prior inMailbox)
  have claimed : ∀ row ∈ moved, row.status = .consuming → row.claimId ≠ some "" := by
    intro row mem consuming
    obtain ⟨prior, inMailbox, move⟩ := moves.predecessor mem
    obtain ⟨wasConsuming, sameClaim⟩ := move.consuming consuming
    rw [sameClaim]
    exact sound.claimed prior inMailbox wasConsuming
  rcases recorded with same | ⟨row, added, new⟩
  · exact ⟨by rwa [same], clientInputIds, by rwa [same], by rwa [same]⟩
  · constructor
    · rw [added, map_append, nodup_append]
      refine ⟨ids, nodup_singleton _, ?_⟩
      intro one hOne other hOther same
      obtain rfl := mem_singleton.mp hOther
      rw [same, moves.ids] at hOne
      exact new.fresh hOne
    · exact clientInputIds
    · intro other mem
      rw [added] at mem
      rcases Library.mem_concat.mp mem with inMoved | rfl
      · exact holdsUp other inMoved
      · exact new.holdsUp
    · intro other mem consuming
      rw [added] at mem
      rcases Library.mem_concat.mp mem with inMoved | rfl
      · exact claimed other inMoved consuming
      · exact absurd consuming new.notConsuming

theorem SoundQueue.of_reaches (reaches : queues.Reaches queue) : SoundQueue queue := by
  apply reaches.invariant
  · exact fun _ initially => initially
  · intro queue operation after _ sound stepped
    exact sound.proceeds (step_proceeds stepped)

theorem becomes_leads {later : SessionQueue} (reaches : queues.Reaches queue)
    (leads : queues.Leads queue later) (mem : row ∈ queue.mailbox) :
    ∃ now ∈ later.mailbox, InputMove row now := by
  apply leads.relates reaches
  · exact ⟨row, mem, .refl row⟩
  · rintro middle operation after _ ⟨_, inMiddle, first⟩ stepped
    obtain ⟨_, moves, recorded⟩ := step_proceeds stepped
    obtain ⟨now, inMoved, second⟩ := moves.successor inMiddle
    refine ⟨now, ?_, first.trans second⟩
    rcases recorded with same | ⟨new, added, -⟩
    · rw [same]
      exact inMoved
    · rw [added]
      exact mem_append_left _ inMoved

/-- Whatever is done to the queue, an input stays in it as one row. The row keeps its ids, its
version only grows, and once it has ended its status does not change. -/
theorem inputs_stay (reaches : queues.Reaches queue) (leads : queues.Leads queue later)
    (mem : row ∈ queue.mailbox) :
    ∃ now ∈ later.mailbox, (∀ other ∈ later.mailbox, other.id = row.id ↔ other = now) ∧
      InputMove row now := by
  obtain ⟨now, inLater, move⟩ := becomes_leads reaches leads mem
  refine ⟨now, inLater, fun other isOther => ⟨fun same => ?_, fun same => same ▸ move.id⟩, move⟩
  exact eq_of_id_eq (SoundQueue.of_reaches (leads.reaches reaches)).ids isOther inLater
    (same.trans move.id.symm)

def waitingInput (id : String) (position : Nat) : MailboxRow :=
  ⟨id, .followUp, .input (.userMessage { content := [] }), .queued, none, none, some position, 0, 0⟩

def twoInputs : SessionQueue :=
  ⟨⟨"s", none, none, none, ⟨"", "", .running⟩, [], none, [],
    [waitingInput "first" 0, waitingInput "second" 1]⟩, 0, 0, 0⟩

/-- The two change places, the second is promoted, and the first is edited and cancelled. -/
def cancelFirst : List QueueOperation :=
  [.reorder ["second", "first"] none, .promote "second" 1 (.ok ()),
    .update "first" { content := [.text "again"] } none, .cancel "first" none]

theorem inputs_stay_cancelled : ∃ later : SessionQueue,
    later.mailbox.map (fun row => (row.id, row.priority, row.status)) =
        [("first", .followUp, .cancelled), ("second", .steer, .queued)] ∧
      ∃ now ∈ later.mailbox, (∀ other ∈ later.mailbox, other.id = "first" ↔ other = now) ∧
        InputMove (waitingInput "first" 0) now := by
  have sound : SoundQueue twoInputs := by
    constructor <;> simp [twoInputs, waitingInput, mailbox, HoldsUp, controlKind]
  have cancels : ((cancelFirst.foldlM step twoInputs).map fun later =>
      later.mailbox.map fun row => (row.id, row.priority, row.status)) =
        some [("first", .followUp, .cancelled), ("second", .steer, .queued)] := by
    decide +kernel
  obtain ⟨later, ran, rows⟩ := Option.map_eq_some_iff.mp cancels
  exact ⟨later, rows, inputs_stay (.start sound) (Machine.Leads.run .refl ran) (.head _)⟩

end SessionQueue

end PiRelay.Store
