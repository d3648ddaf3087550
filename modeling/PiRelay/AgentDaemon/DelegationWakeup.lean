import PiRelay.AgentStore.DelegationLifecycle
import PiRelay.AgentStore.DelegationTransactions
import PiRelay.AgentStore.QueueMoves

/-! The parent of a delegation is told once that it has ended. The status is claimed in one
transaction and the observation queued in another, so a daemon may stop in between; what
joins them is the id of the queued input and the repair at boot, which looks for completed
delegations whose input is missing. -/
namespace PiRelay.Runtime

open AgentVocab AgentCore Session Store List Option
open Library (Evolves Program Interleaving Schedule length_filter_key_le_one)

/-- The queued-input client id is keyed by the delegation and its attempt, so that a repair
cannot enqueue twice. -/
def delegationWakeupClientInputId (delegation : DelegationRow) : String :=
  "delegation-steer:" ++ delegation.id ++ ":" ++ delegation.attemptId

/-- The revisions of a queue as an operation on it finds them. -/
structure QueueCounters where
  session : Nat
  queue : Nat
  transcript : Nat

section

variable (store : DelegationStore)

/-- The delegation that a session is joined to; a session of its own has none that could
be closed. -/
def joinedDelegation (session : SessionRow) : Delegation :=
  match session.delegationId.bind store.findDelegation with
  | some row => row.joined
  | none => { id := "", parentSessionId := "", status := .running }

def queueOf (session : SessionRow) (counters : QueueCounters) : SessionQueue where
  session := session.under (joinedDelegation store session)
  sessionRevision := counters.session
  queueRevision := counters.queue
  transcriptRevision := counters.transcript

/-- An operation on the queue of a session. The revisions are not kept here, so an edit may
find any. -/
def onQueue (sessionId : String) (counters : QueueCounters)
    (operation : QueueOperation) : Option DelegationStore :=
  match store.findSession sessionId with
  | none => none
  | some session =>
    ((queueOf store session counters).step operation).map fun after =>
      { store with
        sessions := store.sessions.map fun other =>
          if other.id == sessionId then other.become after.session else other }

/-- The observation of a completed delegation is queued at its parent, unless it is there. -/
def enqueueWakeup (delegation : DelegationRow)
    (observation : DaemonToolObservation) (counters : QueueCounters) (context : ControlContext) :
    Option DelegationStore :=
  match context.routeRead with
  | .error _ => none
  | .ok () =>
    onQueue store delegation.parentSessionId counters
      (.enqueueDelegationObservation observation (delegationWakeupClientInputId delegation)
        context)

end

def isCompleted : DelegationStatus → Bool
  | .done | .doneWithFailures => true
  | .running | .cancelling | .cancelled | .failed => false

def wakeups (store : DelegationStore) (delegation : DelegationRow) : List MailboxRow :=
  (store.sessions.filter (·.id == delegation.parentSessionId)).flatMap fun session =>
    session.mailbox.filter (·.clientInputId == some (delegationWakeupClientInputId delegation))

def completedDelegations (store : DelegationStore) : List DelegationRow :=
  store.delegations.filter fun row => isCompleted row.status

/-- Starting from the missing queue row keeps the work at boot proportional to actual crash
gaps. -/
def listCompletedDelegationsForRepair (store : DelegationStore) : List DelegationRow :=
  (completedDelegations store).filter fun row => (wakeups store row).isEmpty

/-- The handoff files are rendered before the observation is queued. -/
inductive PublicationStage where
  | rendering
  | rendered (observation : DaemonToolObservation)
deriving DecidableEq

inductive RepairStage where
  | classifying
  | publishing (stage : PublicationStage)
deriving DecidableEq

/-- A repair at boot: the delegations that were completed as it began, those of them it has
yet to publish, and those it has given up on. -/
structure RepairRun where
  completed : List DelegationRow
  remaining : List DelegationRow
  skipped : List DelegationRow
  stage : RepairStage

/-- The tables, and the repairs that came to their end. -/
structure WakeupState where
  history : DelegationHistory
  repaired : List RepairRun

def WakeupState.store (state : WakeupState) : DelegationStore := state.history.store

def WakeupState.withStore (state : WakeupState) (store : DelegationStore) : WakeupState :=
  { state with history := { state.history with store } }

/-- What goes on in the daemon. Besides barriers, publications and repairs there are the
other calls on delegations, the launch of their children, and all that is done to the queue
of a session. -/
inductive WakeupProcess where
  | barrier (delegation : DelegationRow)
  | publishing (delegation : DelegationRow) (stage : PublicationStage)
  | repairing (run : RepairRun)
  | calling (call : DelegationCall)
  | queueing (sessionId : String) (counters : QueueCounters) (operation : QueueOperation)
  | spawning (row : DelegationRow) (index : Nat) (fork : ContextFork)

/-- How a process goes on. What the subagents are found to have come to, what the snapshot
holds and whether the files can be written is left open. -/
inductive WakeupChoice where
  | proceed
  | claim (status : DelegationStatus) (completes : status = .done ∨ status = .doneWithFailures)
  | render (observation : DaemonToolObservation)
  | enqueue (counters : QueueCounters) (context : ControlContext)
  | fail

/-- Ids are drawn as `delegation_` and a UUID, and neither has a colon. -/
def isDrawnId (id : String) : Bool := !id.toList.contains ':'

/-- The calls of other parts of the daemon. A delegation is completed by a barrier only. -/
def isOtherCall : DelegationCall → Bool
  | .create _ drawn => isDrawnId drawn.id
  | .beginTeardown .. | .beginFailedLaunch .. | .finishTeardown .. => true
  | .finish .. | .sessionWork _ => false

/-- A barrier reads its delegation as running; a repair lists, in some order, the completed
delegations that have no input. -/
def WakeupProcess.begins (state : WakeupState) : WakeupProcess → Bool
  | .barrier delegation =>
    state.store.findDelegation delegation.id == some delegation
      && delegation.status == .running
  | .publishing _ _ => false
  | .repairing run =>
    run.completed == completedDelegations state.store
      && run.remaining.isPerm (listCompletedDelegationsForRepair state.store)
      && run.skipped.isEmpty && run.stage == .classifying
  | .calling call => isOtherCall call
  | .queueing _ _ operation => operation.observes.isNone
  | .spawning _ _ _ => true

def RepairRun.next (run : RepairRun) (remaining : List DelegationRow) : RepairRun :=
  { run with remaining, stage := .classifying }

/-- A repair publishes one delegation after the other; a failure is logged and the
delegation skipped. -/
def RepairRun.move (run : RepairRun) (state : WakeupState) (choice : WakeupChoice) :
    Option (WakeupState × Option WakeupProcess) :=
  match run.remaining with
  | [] => some ({ state with repaired := run :: state.repaired }, none)
  | delegation :: rest =>
    match run.stage, choice with
    | .classifying, .proceed =>
      if isCompleted delegation.status then
        some (state, some (.repairing { run with stage := .publishing .rendering }))
      else some (state, some (.repairing (run.next rest)))
    | .publishing .rendering, .render observation =>
      some (state, some (.repairing { run with stage := .publishing (.rendered observation) }))
    | .publishing (.rendered observation), .enqueue counters context =>
      (enqueueWakeup state.store delegation observation counters context).map fun store =>
        (state.withStore store, some (.repairing (run.next rest)))
    | _, .fail =>
      some (state,
        some (.repairing { run.next rest with skipped := delegation :: run.skipped }))
    | _, _ => none

def WakeupProcess.move (state : WakeupState) (process : WakeupProcess) (choice : WakeupChoice) :
    Option (WakeupState × Option WakeupProcess) :=
  match process, choice with
  | .barrier delegation, .claim status completes =>
    let won := (state.store.finishDelegation delegation.id delegation.attemptId status).2
    some
      ({ state with
          history := state.history.call
            (.finish delegation.id delegation.attemptId status completes) },
        if won then some (.publishing { delegation with status } .rendering) else none)
  | .publishing delegation .rendering, .render observation =>
    some (state, some (.publishing delegation (.rendered observation)))
  | .publishing delegation (.rendered observation), .enqueue counters context =>
    (enqueueWakeup state.store delegation observation counters context).map fun store =>
      (state.withStore store, none)
  | .repairing run, choice => run.move state choice
  | .calling call, .proceed => some ({ state with history := state.history.call call }, none)
  | .queueing sessionId counters operation, .proceed =>
    (onQueue state.store sessionId counters operation).map fun store =>
      (state.withStore store, none)
  | .spawning row index fork, .proceed =>
    if state.store.hasSession fork.childSessionId then none
    else some (state.withStore (state.store.createContextFork row index fork), none)
  | _, _ => none

/-- A crash of the daemon is the end of every process. -/
def wakeupProgram : Program WakeupState WakeupProcess WakeupChoice Empty where
  begins := WakeupProcess.begins
  holds := fun _ => []
  move := WakeupProcess.move

theorem Proceeds.named {observes : Option String} {before after : List MailboxRow}
    (proceeds : Proceeds observes before after) {clientInputId : Option String}
    (mem : clientInputId ∈ before.map MailboxRow.clientInputId) :
    clientInputId ∈ after.map MailboxRow.clientInputId := by
  obtain ⟨_, moves, same | ⟨_, added, -⟩⟩ := proceeds
  · rw [same, moves.clientInputIds]
    exact mem
  · rw [added, map_append, moves.clientInputIds]
    exact mem_append_left _ mem

theorem Proceeds.observation {observes : Option String} {before after : List MailboxRow}
    (proceeds : Proceeds observes before after) {row : MailboxRow} (mem : row ∈ after)
    (isObservation : row.isObservation) :
    (∃ prior ∈ before, prior.isObservation ∧ prior.clientInputId = row.clientInputId)
      ∨ row.clientInputId = observes ∧ observes.isSome := by
  obtain ⟨moved, moves, recorded⟩ := proceeds
  have earlier : row ∈ moved →
      ∃ prior ∈ before, prior.isObservation ∧ prior.clientInputId = row.clientInputId := by
    intro inMoved
    obtain ⟨prior, inBefore, move⟩ := moves.predecessor inMoved
    refine ⟨prior, inBefore, ?_, move.clientInputId.symm⟩
    rcases move.content with same | ⟨-, message, edited⟩
    · rw [MailboxRow.isObservation, ← same]
      exact isObservation
    · rw [MailboxRow.isObservation, edited] at isObservation
      cases isObservation
  rcases recorded with same | ⟨new, added, isNew⟩
  · rw [same] at mem
    exact .inl (earlier mem)
  · rw [added] at mem
    rcases Library.mem_concat.mp mem with inMoved | rfl
    · exact .inl (earlier inMoved)
    · exact .inr (isNew.observation isObservation)

/-- The row has the attempt that was read. -/
structure SameAttempt (delegation now : DelegationRow) : Prop where
  id : now.id = delegation.id
  attemptId : now.attemptId = delegation.attemptId
  parentSessionId : now.parentSessionId = delegation.parentSessionId

variable {delegation : DelegationRow} {store : DelegationStore} {run : RepairRun}
    {after before state : WakeupState} {process : WakeupProcess}

theorem SameAttempt.clientInputId {now : DelegationRow} (same : SameAttempt delegation now) :
    delegationWakeupClientInputId now = delegationWakeupClientInputId delegation := by
  unfold delegationWakeupClientInputId
  rw [same.id, same.attemptId]

theorem SameAttempt.move {now next : DelegationRow} (same : SameAttempt delegation now)
    (move : DelegationMove now next) : SameAttempt delegation next :=
  ⟨move.id.trans same.id, move.attemptId.trans same.attemptId,
    move.parentSessionId.trans same.parentSessionId⟩

section

variable (store : DelegationStore)

variable (delegation : DelegationRow)

def Known : Prop :=
  ∃ now ∈ store.delegations, SameAttempt delegation now

def Completed : Prop :=
  ∃ now ∈ store.delegations, SameAttempt delegation now ∧ isCompleted now.status = true

/-- The parent has an input with the id of the wakeup. -/
def Published : Prop :=
  ∃ session ∈ store.sessions, session.id = delegation.parentSessionId
    ∧ some (delegationWakeupClientInputId delegation) ∈
      session.mailbox.map MailboxRow.clientInputId

/-- The id is that of the wakeup of a completed delegation of the session. -/
def MeantFor (sessionId : String) (clientInputId : Option String) : Prop :=
  ∃ delegation ∈ store.delegations, isCompleted delegation.status = true
    ∧ delegation.parentSessionId = sessionId
    ∧ clientInputId = some (delegationWakeupClientInputId delegation)

end

theorem isTerminal_of_isCompleted {status : DelegationStatus} (completed : isCompleted status) :
    status.isTerminal := by
  cases status with
  | done | doneWithFailures => rfl
  | _ => cases completed

theorem isCompleted_move {row next : DelegationRow} (move : DelegationMove row next)
    (completed : isCompleted row.status) : isCompleted next.status := by
  rw [move.move.terminal (isTerminal_of_isCompleted completed)]
  exact completed

/-- The mailbox goes on, and what is observed in it is meant for the session. -/
structure SessionGrows (store : DelegationStore) (before after : SessionRow) : Prop where
  id : after.id = before.id
  mailbox : ∃ observes, Proceeds observes before.mailbox after.mailbox
    ∧ (observes.isSome = true → MeantFor store before.id observes)

structure NewSession (store : DelegationStore) (session : SessionRow) : Prop where
  fresh : ∀ other ∈ store.sessions, other.id ≠ session.id
  clientInputIds : (session.mailbox.filterMap MailboxRow.clientInputId).Nodup
  noObservations : ∀ row ∈ session.mailbox, row.isObservation = false

structure WakeupEffect (before after : DelegationStore) : Prop where
  delegations : Evolves DelegationMove
    (fun row => NewDelegation before.delegations row ∧ isDrawnId row.id = true)
    before.delegations after.delegations
  sessions : Evolves (SessionGrows after) (NewSession before) before.sessions after.sessions
  alone : after.sessions.length ≤ before.sessions.length + 1

theorem SessionGrows.refl (store : DelegationStore) (session : SessionRow) :
    SessionGrows store session session :=
  ⟨rfl, none, .refl _, nofun⟩

namespace WakeupEffect

variable {before after : DelegationStore} {delegation : DelegationRow}

theorem refl (store : DelegationStore) : WakeupEffect store store where
  delegations := .refl fun row _ => .refl row
  sessions := .refl fun session _ => .refl store session
  alone := Nat.le_succ _

section

variable (effect : WakeupEffect before after)
include effect

theorem known (known : Known before delegation) : Known after delegation := by
  obtain ⟨_, mem, same⟩ := known
  obtain ⟨next, inAfter, move⟩ := effect.delegations.successor mem
  exact ⟨next, inAfter, same.move move⟩

theorem completed (completed : Completed before delegation) : Completed after delegation := by
  obtain ⟨_, mem, same, isDone⟩ := completed
  obtain ⟨next, inAfter, move⟩ := effect.delegations.successor mem
  exact ⟨next, inAfter, same.move move, isCompleted_move move isDone⟩

theorem published (published : Published before delegation) : Published after delegation := by
  obtain ⟨_, mem, isParent, named⟩ := published
  obtain ⟨next, inAfter, grows⟩ := effect.sessions.successor mem
  obtain ⟨_, proceeds, -⟩ := grows.mailbox
  exact ⟨next, inAfter, grows.id.trans isParent, Proceeds.named proceeds named⟩

theorem meantFor {sessionId : String} {clientInputId : Option String}
    (meant : MeantFor before sessionId clientInputId) : MeantFor after sessionId clientInputId := by
  obtain ⟨delegation, mem, isDone, isParent, named⟩ := meant
  obtain ⟨next, inAfter, move⟩ := effect.delegations.successor mem
  have same : SameAttempt delegation next := ⟨move.id, move.attemptId, move.parentSessionId⟩
  refine ⟨next, inAfter, isCompleted_move move isDone, same.parentSessionId.trans isParent, ?_⟩
  rw [named, same.clientInputId]

end

end WakeupEffect

theorem SessionGrows.of_moves {before after : SessionRow} (id : after.id = before.id)
    (moves : InputMoves before.mailbox after.mailbox) : SessionGrows store before after :=
  ⟨id, none, .moves moves, nofun⟩

theorem cancelActive_sessions (store later : DelegationStore) (row : DelegationRow) :
    Evolves (SessionGrows later) (NewSession store) store.sessions
      (store.cancelActiveDelegationChildInputs row).sessions := by
  apply Evolves.of_map
  intro session _
  split
  · apply SessionGrows.of_moves
    · rfl
    · have moves := (session.under row.joined).cancelActiveDelegationChildInputs_moves
      exact moves
  · exact .refl later session

theorem call_sessions (history : DelegationHistory) {call : DelegationCall}
    (creates : ∀ request drawn, call ≠ .create request drawn)
    (settled : ∀ sessions, call ≠ .sessionWork sessions) :
    (history.call call).store.delegations.length = history.store.delegations.length
      ∧ ((history.call call).store.sessions = history.store.sessions
        ∨ ∃ row, (history.call call).store.sessions =
          (history.store.cancelActiveDelegationChildInputs row).sessions) := by
  have performs := history.call_performs call
  generalize history.call call = after at performs
  cases performs with
  | nothing => exact ⟨rfl, .inl rfl⟩
  | creates => exact absurd rfl (creates _ _)
  | moves moves step keeps ending =>
    obtain ⟨-, rfl⟩ := DelegationStore.moveDelegation_some moves
    obtain same | same := ending
    · rw [same]
      exact ⟨length_map _, .inl rfl⟩
    · rw [same]
      exact ⟨length_map _, .inr ⟨_, rfl⟩⟩
  | settles sessions => exact absurd rfl (settled sessions)

theorem call_effect (history : DelegationHistory) {call : DelegationCall}
    (settled : ∀ sessions, call ≠ .sessionWork sessions)
    (drawn : ∀ request drawn, call = .create request drawn → isDrawnId drawn.id) :
    WakeupEffect history.store (history.call call).store := by
  by_cases creates : ∃ request drawn, call = .create request drawn
  · obtain ⟨request, drawnDelegation, rfl⟩ := creates
    rw [DelegationHistory.call]
    split
    · exact .refl _
    · rename_i store row creates
      obtain ⟨sessions, recorded⟩ := DelegationStore.createDelegationIdempotent_ok creates
      refine ⟨?_, ?_, ?_⟩
      · rcases recorded with same | ⟨added, new⟩
        · rw [same]
          exact .refl fun row _ => .refl row
        · rw [added]
          apply Evolves.append (fun row _ => .refl row)
          intro row mem
          rw [mem_singleton.mp mem]
          exact ⟨new, drawn request drawnDelegation rfl⟩
      · rw [sessions]
        exact .refl fun session _ => .refl store session
      · rw [sessions]
        exact Nat.le_succ _
  · have creates : ∀ request drawn, call ≠ .create request drawn := by
      intro request drawn same
      exact creates ⟨request, drawn, same⟩
    obtain ⟨sameLength, sessions⟩ := call_sessions history creates settled
    obtain ⟨⟨_, added, hAfter, moves, -⟩, -⟩ := (history.call_step call).delegations
    obtain rfl : added = [] := by
      rw [hAfter, length_append, length_map] at sameLength
      exact length_eq_zero_iff.mp (by omega)
    refine ⟨?_, ?_, ?_⟩
    · rw [hAfter, append_nil]
      exact .of_map moves
    · rcases sessions with same | ⟨row, cancelled⟩
      · rw [same]
        exact .refl fun session _ => .refl _ session
      · rw [cancelled]
        exact cancelActive_sessions history.store _ row
    · rcases sessions with same | ⟨row, cancelled⟩
      · rw [same]
        exact Nat.le_succ _
      · rw [cancelled, DelegationStore.cancelActiveDelegationChildInputs, length_map]
        exact Nat.le_succ _

theorem createContextFork_effect (row : DelegationRow) (index : Nat) {fork : ContextFork}
    (fresh : store.hasSession fork.childSessionId = false) :
    WakeupEffect store (store.createContextFork row index fork) where
  delegations := .refl fun row _ => .refl row
  sessions := by
    apply Evolves.append (fun session _ => .refl _ session)
    intro session mem
    rw [mem_singleton.mp mem]
    constructor
    · intro other inSessions same
      rw [DelegationStore.hasSession, List.any_eq_false] at fresh
      exact fresh other inSessions (beq_iff_eq.mpr same)
    · exact nodup_nil
    · intro input isTask
      rw [mem_singleton.mp isTask]
      rfl
  alone := by
    rw [DelegationStore.createContextFork, length_append]
    exact Nat.le_refl _

section

variable (distinct : (store.sessions.map SessionRow.id).Nodup)
include distinct

theorem onQueue_effect {after : DelegationStore} {sessionId : String} {counters : QueueCounters}
    {operation : QueueOperation} (done : onQueue store sessionId counters operation = some after)
    (meant : operation.observes.isSome → MeantFor store sessionId operation.observes) :
    WakeupEffect store after ∧ after.delegations = store.delegations
      ∧ ∃ session ∈ store.sessions, session.id = sessionId ∧ ∃ queue,
        (queueOf store session counters).step operation = some queue
          ∧ session.become queue.session ∈ after.sessions := by
  rw [onQueue] at done
  split at done
  · cases done
  · rename_i session found
    have mem := mem_of_find?_eq_some found
    have named : session.id = sessionId := by simpa using find?_some found
    obtain ⟨queue, stepped, rfl⟩ := map_eq_some_iff.mp done
    refine ⟨⟨.refl fun row _ => .refl row, ?_, ?_⟩, rfl, session, mem, named, queue, stepped, ?_⟩
    · apply Evolves.of_map
      intro other inSessions
      split
      · rename_i isNamed
        have same : other.id = session.id := by rw [named]; exact beq_iff_eq.mp isNamed
        obtain rfl := inj_on_of_nodup_map distinct inSessions mem same
        have proceeds := SessionQueue.step_proceeds stepped
        refine ⟨rfl, operation.observes, proceeds, ?_⟩
        intro observes
        rw [named]
        exact meant observes
      · exact .refl _ other
    · rw [length_map]
      exact Nat.le_succ _
    · refine mem_map.mpr ⟨session, mem, ?_⟩
      rw [named, beq_self_eq_true, if_pos rfl]

theorem enqueueWakeup_effect {after : DelegationStore} {observation : DaemonToolObservation}
    {counters : QueueCounters} {context : ControlContext} (completed : Completed store delegation)
    (enqueues : enqueueWakeup store delegation observation counters context = some after) :
    WakeupEffect store after ∧ after.delegations = store.delegations
      ∧ Published after delegation := by
  rw [enqueueWakeup] at enqueues
  split at enqueues
  · cases enqueues
  · rename_i routed
    obtain ⟨now, mem, same, isDone⟩ := completed
    obtain ⟨effect, delegations, session, -, isParent, queue, stepped, inAfter⟩ :=
      onQueue_effect distinct enqueues fun _ =>
        ⟨now, mem, isDone, same.parentSessionId, by rw [same.clientInputId]; rfl⟩
    refine ⟨effect, delegations, _, inAfter, isParent, ?_⟩
    rw [SessionQueue.step] at stepped
    split at stepped
    · cases stepped
    cases stepped
    rw [SessionQueue.perform]
    cases observes : (queueOf store session counters).enqueueDelegationObservation observation
        (delegationWakeupClientInputId delegation) context with
    | error error =>
      rw [SessionQueue.enqueueDelegationObservation, routed] at observes
      simp only at observes
      split at observes <;> cases observes
    | ok queue =>
      obtain ⟨rfl, known⟩ | ⟨rfl, -⟩ := SessionQueue.enqueueDelegationObservation_cases observes
      · exact known
      · refine mem_map.mpr ⟨_, mem_append_right _ (.head _), rfl⟩

end

/-- What a repair has to do, has given up, or need not do. -/
structure RepairOk (store : DelegationStore) (run : RepairRun) : Prop where
  completed : ∀ delegation ∈ run.completed, Completed store delegation
    ∧ (delegation ∈ run.remaining ∨ delegation ∈ run.skipped ∨ Published store delegation)
  remaining : ∀ delegation ∈ run.remaining,
    isCompleted delegation.status = true ∧ Completed store delegation

def WakeupAssertion (state : WakeupState) : WakeupProcess → Prop
  | .barrier delegation => Known state.store delegation
  | .publishing delegation _ => Completed state.store delegation
  | .repairing run => RepairOk state.store run
  | .calling call => isOtherCall call = true
  | .queueing _ _ operation => operation.observes = none
  | .spawning _ _ _ => True

structure SoundWakeups (state : WakeupState) : Prop where
  history : state.history.Sound
  drawn : ∀ row ∈ state.store.delegations, isDrawnId row.id = true
  sessionIds : (state.store.sessions.map SessionRow.id).Nodup
  clientInputIds : ∀ session ∈ state.store.sessions,
    (session.mailbox.filterMap MailboxRow.clientInputId).Nodup
  meant : ∀ session ∈ state.store.sessions, ∀ row ∈ session.mailbox, row.isObservation = true →
    MeantFor state.store session.id row.clientInputId
  repaired : ∀ run ∈ state.repaired, run.remaining = [] ∧ RepairOk state.store run

theorem RepairOk.effect {before after : DelegationStore} (ok : RepairOk before run)
    (effect : WakeupEffect before after) : RepairOk after run where
  completed := by
    intro delegation mem
    obtain ⟨isDone, published⟩ := ok.completed delegation mem
    exact ⟨effect.completed isDone, published.imp_right (Or.imp_right effect.published)⟩
  remaining := by
    intro delegation mem
    obtain ⟨wasDone, isDone⟩ := ok.remaining delegation mem
    exact ⟨wasDone, effect.completed isDone⟩

theorem WakeupAssertion.effect (asserted : WakeupAssertion before process)
    (effect : WakeupEffect before.store after.store) : WakeupAssertion after process := by
  cases process with
  | barrier => exact effect.known asserted
  | publishing => exact effect.completed asserted
  | repairing => exact RepairOk.effect asserted effect
  | calling | queueing => exact asserted
  | spawning => trivial

/-- What a process does to the store keeps the wakeups sound. -/
theorem SoundWakeups.effect (sound : SoundWakeups state) (history : after.history.Sound)
    (effect : WakeupEffect state.store after.store) (repaired : after.repaired = state.repaired) :
    SoundWakeups after where
  history := history
  drawn := by
    intro row mem
    rcases effect.delegations.predecessor mem with ⟨-, drawn⟩ | ⟨prior, inBefore, move⟩
    · exact drawn
    · rw [move.id]
      exact sound.drawn prior inBefore
  sessionIds := by
    apply Evolves.distinct (fun _ _ grows => SessionGrows.id grows)
      (fun session new => NewSession.fresh new) effect.sessions
    · intro added lengths
      have alone := effect.alone
      omega
    · exact sound.sessionIds
  clientInputIds := by
    intro session mem
    rcases effect.sessions.predecessor mem with new | ⟨prior, inBefore, grows⟩
    · exact new.clientInputIds
    · obtain ⟨observes, proceeds, -⟩ := grows.mailbox
      exact proceeds.clientInputIds (sound.clientInputIds prior inBefore)
  meant := by
    intro session mem row inMailbox isObservation
    rcases effect.sessions.predecessor mem with new | ⟨prior, inBefore, grows⟩
    · rw [new.noObservations row inMailbox] at isObservation
      cases isObservation
    · obtain ⟨observes, proceeds, meant⟩ := grows.mailbox
      rw [grows.id]
      rcases Proceeds.observation proceeds inMailbox isObservation with
        ⟨earlier, wasThere, wasObservation, sameId⟩ | ⟨named, observed⟩
      · rw [← sameId]
        exact effect.meantFor (sound.meant prior inBefore earlier wasThere wasObservation)
      · rw [named]
        exact meant observed
  repaired := by
    intro run mem
    rw [repaired] at mem
    obtain ⟨finished, ok⟩ := sound.repaired run mem
    exact ⟨finished, ok.effect effect⟩

theorem sound_withStore (sound : state.history.Sound)
    (same : store.delegations = state.store.delegations) :
    (state.withStore store).history.Sound where
  distinct := by
    show (store.delegations.map DelegationRow.id).Nodup
    rw [same]
    exact sound.distinct
  targets := by
    show ∀ row ∈ store.delegations, SoundTarget row
    rw [same]
    exact sound.targets
  ended := by
    show ∀ delegationId ∈ state.history.winners, ∃ row ∈ store.delegations,
      row.id = delegationId ∧ row.status ≠ .running
    rw [same]
    exact sound.ended
  once := sound.once

theorem finish_completes {history : DelegationHistory} {status : DelegationStatus}
    (sound : history.Sound) (known : Known history.store delegation)
    (completes : status = .done ∨ status = .doneWithFailures)
    (won : (history.store.finishDelegation delegation.id delegation.attemptId status).2) :
    Completed (history.call (.finish delegation.id delegation.attemptId status completes)).store
      { delegation with status } := by
  rw [DelegationHistory.call]
  rcases history.store.finishDelegation_cases delegation.id delegation.attemptId status with
    missed | ⟨-, -, moved, row, -, -, moves, finished⟩
  · rw [missed] at won
    cases won
  · rw [finished]
    obtain ⟨⟨_, mem, admitted, rfl⟩, rfl⟩ := DelegationStore.moveDelegation_some moves
    obtain ⟨now, inStore, same⟩ := known
    have attempt := admitted
    simp only [DelegationRow.isAttempt, Bool.and_eq_true, beq_iff_eq] at attempt
    obtain rfl := inj_on_of_nodup_map sound.distinct inStore mem (same.id.trans attempt.1.1.symm)
    refine ⟨{ now with status }, ?_, ⟨same.id, same.attemptId, same.parentSessionId⟩, ?_⟩
    · refine mem_map.mpr ⟨now, mem, ?_⟩
      rw [if_pos admitted]
    · rcases completes with rfl | rfl <;> rfl

theorem RepairOk.next {after : DelegationStore} {rest : List DelegationRow}
    (ok : RepairOk store run) (listed : run.remaining = delegation :: rest)
    (effect : WakeupEffect store after) (published : Published after delegation) :
    RepairOk after (run.next rest) where
  completed := by
    intro other mem
    obtain ⟨isDone, left⟩ := ok.completed other mem
    refine ⟨effect.completed isDone, ?_⟩
    rw [listed, mem_cons] at left
    rcases left with (rfl | remains) | skipped | isPublished
    · exact .inr (.inr published)
    · exact .inl remains
    · exact .inr (.inl skipped)
    · exact .inr (.inr (effect.published isPublished))
  remaining := by
    intro other mem
    have wasListed : other ∈ run.remaining := by
      rw [listed]
      exact .tail _ mem
    obtain ⟨wasDone, isDone⟩ := ok.remaining other wasListed
    exact ⟨wasDone, effect.completed isDone⟩

theorem RepairOk.skip {rest : List DelegationRow} (ok : RepairOk store run)
    (listed : run.remaining = delegation :: rest) :
    RepairOk store { run.next rest with skipped := delegation :: run.skipped } where
  completed := by
    intro other mem
    obtain ⟨isDone, left⟩ := ok.completed other mem
    refine ⟨isDone, ?_⟩
    rw [listed, mem_cons] at left
    rcases left with (rfl | remains) | skipped | isPublished
    · exact .inr (.inl (.head _))
    · exact .inl remains
    · exact .inr (.inl (.tail _ skipped))
    · exact .inr (.inr isPublished)
  remaining := by
    intro other mem
    apply ok.remaining
    rw [listed]
    exact .tail _ mem

/-- What a move of one process establishes. -/
def Establishes (before after : WakeupState) (next : Option WakeupProcess) : Prop :=
  WakeupEffect before.store after.store ∧ SoundWakeups after
    ∧ ∀ moved ∈ next, WakeupAssertion after moved

theorem Establishes.ends (effect : WakeupEffect before.store after.store)
    (sound : SoundWakeups after) : Establishes before after none :=
  ⟨effect, sound, fun _ mem => absurd mem (not_mem_none _)⟩

theorem Establishes.goesOn (effect : WakeupEffect before.store after.store)
    (sound : SoundWakeups after) (asserted : WakeupAssertion after process) :
    Establishes before after (some process) := by
  refine ⟨effect, sound, ?_⟩
  intro moved isNext
  obtain rfl := mem_some.mp isNext
  exact asserted

theorem RepairRun.move_establishes {choice : WakeupChoice} {next : Option WakeupProcess}
    (sound : SoundWakeups state) (ok : RepairOk state.store run)
    (moves : run.move state choice = some (after, next)) : Establishes state after next := by
  have keeps : ∀ later : RepairRun, RepairOk state.store later →
      Establishes state state (some (.repairing later)) :=
    fun later laterOk => .goesOn (.refl _) sound laterOk
  rw [move] at moves
  split at moves
  · rename_i finished
    cases moves
    refine .ends (.refl _) ⟨sound.history, sound.drawn, sound.sessionIds, sound.clientInputIds,
      sound.meant, ?_⟩
    intro other mem
    rcases mem_cons.mp mem with rfl | earlier
    · exact ⟨finished, ok⟩
    · exact sound.repaired other earlier
  · rename_i delegation rest listed
    have isListed : delegation ∈ run.remaining := by
      rw [listed]
      exact (.head _)
    obtain ⟨wasDone, isDone⟩ := ok.remaining delegation isListed
    split at moves
    · rw [if_pos wasDone] at moves
      cases moves
      exact keeps _ ⟨ok.completed, ok.remaining⟩
    · cases moves
      exact keeps _ ⟨ok.completed, ok.remaining⟩
    · obtain ⟨_, enqueues, published⟩ := map_eq_some_iff.mp moves
      cases published
      obtain ⟨effect, delegations, isPublished⟩ :=
        enqueueWakeup_effect sound.sessionIds isDone enqueues
      exact .goesOn effect (sound.effect (sound_withStore sound.history delegations) effect rfl)
        (ok.next listed effect isPublished)
    · cases moves
      exact keeps _ (ok.skip listed)
    · cases moves

theorem WakeupProcess.move_establishes {choice : WakeupChoice} {next : Option WakeupProcess}
    (sound : SoundWakeups state) (asserted : WakeupAssertion state process)
    (moves : process.move state choice = some (after, next)) : Establishes state after next := by
  rw [move.eq_def] at moves
  split at moves
  · rename_i delegation status completes
    cases moves
    have effect : WakeupEffect state.store (state.history.call
        (.finish delegation.id delegation.attemptId status completes)).store := by
      apply call_effect
      · intro sessions same
        cases same
      · intro request drawn same
        cases same
    have history := sound.history.step (state.history.call_step
      (.finish delegation.id delegation.attemptId status completes))
    have soundAfter : SoundWakeups { state with
        history := state.history.call
          (.finish delegation.id delegation.attemptId status completes) } :=
      sound.effect history effect rfl
    split
    · rename_i won
      exact .goesOn effect soundAfter (finish_completes sound.history asserted completes won)
    · exact .ends effect soundAfter
  · rename_i delegation observation
    cases moves
    exact .goesOn (.refl _) sound asserted
  · rename_i delegation observation counters context
    obtain ⟨store, enqueues, published⟩ := map_eq_some_iff.mp moves
    cases published
    obtain ⟨effect, delegations, -⟩ := enqueueWakeup_effect sound.sessionIds asserted enqueues
    exact .ends effect (sound.effect (sound_withStore sound.history delegations) effect rfl)
  · exact RepairRun.move_establishes sound asserted moves
  · rename_i call
    cases moves
    have effect : WakeupEffect state.store (state.history.call call).store := by
      apply call_effect
      · rintro sessions rfl
        cases asserted
      · rintro request drawn rfl
        exact asserted
    have history := sound.history.step (state.history.call_step call)
    exact .ends effect (sound.effect history effect rfl)
  · rename_i sessionId counters operation
    obtain ⟨store, done, queued⟩ := map_eq_some_iff.mp moves
    cases queued
    obtain ⟨effect, delegations, -⟩ := onQueue_effect sound.sessionIds done (by
      intro observes
      rw [asserted] at observes
      cases observes)
    exact .ends effect (sound.effect (sound_withStore sound.history delegations) effect rfl)
  · rename_i row index fork
    split at moves
    · cases moves
    · rename_i unused
      cases moves
      have effect := createContextFork_effect row index (Bool.eq_false_of_not_eq_true unused)
      exact .ends effect (sound.effect (sound_withStore sound.history rfl) effect rfl)
  · cases moves

/-- Nothing has been delegated or observed yet. -/
structure WakeupsBegin (state : WakeupState) : Prop where
  history : DelegationHistory.Initial state.history
  sessionIds : (state.store.sessions.map SessionRow.id).Nodup
  clientInputIds : ∀ session ∈ state.store.sessions,
    (session.mailbox.filterMap MailboxRow.clientInputId).Nodup
  noObservations : ∀ session ∈ state.store.sessions, ∀ row ∈ session.mailbox,
    row.isObservation = false
  repaired : state.repaired = []

theorem WakeupsBegin.sound (begins : WakeupsBegin state) :
    SoundWakeups state where
  history := DelegationHistory.Sound.of_reaches (.start begins.history)
  drawn := by
    intro row mem
    rw [WakeupState.store, begins.history.1] at mem
    cases mem
  sessionIds := begins.sessionIds
  clientInputIds := begins.clientInputIds
  meant := by
    intro session mem row inMailbox isObservation
    rw [begins.noObservations session mem row inMailbox] at isObservation
    cases isObservation
  repaired := by
    intro run mem
    rw [begins.repaired] at mem
    cases mem

theorem begins_asserted (begins : process.begins state) : WakeupAssertion state process := by
  cases process with
  | barrier delegation =>
    rw [WakeupProcess.begins, Bool.and_eq_true, beq_iff_eq] at begins
    exact ⟨delegation, mem_of_find?_eq_some begins.1, rfl, rfl, rfl⟩
  | publishing => cases begins
  | repairing run =>
    simp only [WakeupProcess.begins, Bool.and_eq_true, beq_iff_eq] at begins
    obtain ⟨⟨⟨completed, listed⟩, -⟩, -⟩ := begins
    have isDone : ∀ delegation ∈ run.completed,
        isCompleted delegation.status ∧ Completed state.store delegation := by
      intro delegation mem
      rw [completed] at mem
      obtain ⟨inStore, isDone⟩ := mem_filter.mp mem
      exact ⟨isDone, delegation, inStore, ⟨rfl, rfl, rfl⟩, isDone⟩
    have perm := isPerm_iff.mp listed
    constructor
    · intro delegation mem
      refine ⟨(isDone delegation mem).2, ?_⟩
      by_cases missing : (wakeups state.store delegation).isEmpty
      · refine .inl (perm.symm.subset (mem_filter.mpr ⟨?_, missing⟩))
        rw [← completed]
        exact mem
      · obtain ⟨row, isWakeup⟩ := exists_mem_of_ne_nil _
          (fun empty => missing (List.isEmpty_iff.mpr empty))
        obtain ⟨session, inStore, inMailbox⟩ := mem_flatMap.mp isWakeup
        obtain ⟨isSession, isParent⟩ := mem_filter.mp inStore
        obtain ⟨isRow, named⟩ := mem_filter.mp inMailbox
        exact .inr (.inr ⟨session, isSession, beq_iff_eq.mp isParent,
          mem_map.mpr ⟨row, isRow, beq_iff_eq.mp named⟩⟩)
    · intro delegation mem
      apply isDone
      rw [completed]
      exact (mem_filter.mp (perm.subset mem)).1
  | calling => exact begins
  | queueing => exact isNone_iff_eq_none.mp begins
  | spawning => trivial

theorem SoundWakeups.of_reaches {state : Interleaving WakeupState WakeupProcess}
    (reaches : (wakeupProgram.machine WakeupsBegin).Reaches state) : SoundWakeups state.shared := by
  have annotated : wakeupProgram.Annotated SoundWakeups WakeupAssertion state := by
    apply Program.Annotated.reaches (fun _ begins => WakeupsBegin.sound begins) ?_ ?_ ?_ reaches
    · intro shared process _ begins
      exact begins_asserted begins
    · intro shared process choice after next sound asserted moves
      exact (WakeupProcess.move_establishes sound asserted moves).2
    · intro shared process choice after next other sound asserted moves _ _ others
      exact others.effect (WakeupProcess.move_establishes sound asserted moves).1
  exact annotated.invariant

theorem wakeups_at_most_one (sound : SoundWakeups state) (delegation : DelegationRow) :
    (wakeups state.store delegation).length ≤ 1 := by
  have parents : (state.store.sessions.filter
      (·.id == delegation.parentSessionId)).length ≤ 1 := by
    have distinct : (state.store.sessions.filterMap fun session => some session.id).Nodup := by
      rw [filterMap_eq_map']
      exact sound.sessionIds
    have few := length_filter_key_le_one distinct delegation.parentSessionId
    simpa using few
  have among : ∀ session ∈ state.store.sessions.filter (·.id == delegation.parentSessionId),
      session ∈ state.store.sessions :=
    fun session mem => (mem_filter.mp mem).1
  rw [wakeups]
  generalize state.store.sessions.filter (·.id == delegation.parentSessionId) = found
    at parents among ⊢
  cases found with
  | nil => exact Nat.zero_le _
  | cons parent rest =>
    obtain rfl : rest = [] := by
      rw [length_cons] at parents
      exact length_eq_zero_iff.mp (by omega)
    rw [flatMap_singleton]
    exact length_filter_key_le_one (sound.clientInputIds parent (among parent (.head _))) _

theorem id_of_clientInputId {other : DelegationRow} (drawn : isDrawnId delegation.id)
    (otherDrawn : isDrawnId other.id)
    (same : delegationWakeupClientInputId delegation = delegationWakeupClientInputId other) :
    delegation.id = other.id := by
  have read : ∀ row : DelegationRow, isDrawnId row.id →
      ((delegationWakeupClientInputId row).toList.drop "delegation-steer:".toList.length).takeWhile
        (· != ':') = row.id.toList := by
    intro row isDrawn
    have noColon : ∀ char ∈ row.id.toList, (char != ':') := by
      intro char mem
      rw [isDrawnId, Bool.not_eq_true', contains_eq_mem, decide_eq_false_iff_not] at isDrawn
      exact bne_iff_ne.mpr fun isColon => isDrawn (isColon ▸ mem)
    unfold delegationWakeupClientInputId
    rw [String.toList_append, String.toList_append, String.toList_append, append_assoc,
      append_assoc, drop_left, takeWhile_append_of_pos noColon]
    have colon : ":".toList = [':'] := rfl
    rw [colon, singleton_append, takeWhile_cons_of_neg (by decide), append_nil]
  have lists := read delegation drawn
  rw [same, read other otherDrawn] at lists
  exact String.toList_inj.mp lists.symm

/-- A parent is told of its delegations. -/
structure ParentWakeups (state : WakeupState) : Prop where
  atMostOnce : ∀ delegation ∈ state.store.delegations,
    (wakeups state.store delegation).length ≤ 1
  /-- A delegation that is not completed, as one that was cancelled or has failed, has
  contributed nothing. -/
  onlyCompleted : ∀ delegation ∈ state.store.delegations,
    ∀ row ∈ wakeups state.store delegation, row.isObservation = true →
      delegation.status = .done ∨ delegation.status = .doneWithFailures
  repaired : ∀ run ∈ state.repaired, run.skipped = [] → ∀ delegation ∈ run.completed,
    ∃ now ∈ state.store.delegations, SameAttempt delegation now
      ∧ (wakeups state.store now).length = 1

/-- However barriers, boot repairs, teardowns and crashes come in between, a parent has at
most one input for a delegation, and after a repair that came through it has one for every
delegation that had been completed. -/
theorem parent_is_woken_once {state : Interleaving WakeupState WakeupProcess}
    (reaches : (wakeupProgram.machine WakeupsBegin).Reaches state) :
    ParentWakeups state.shared := by
  have sound := SoundWakeups.of_reaches reaches
  constructor
  · intro delegation _
    exact wakeups_at_most_one sound delegation
  · intro delegation mem row isWakeup isObservation
    obtain ⟨session, inStore, inMailbox⟩ := mem_flatMap.mp isWakeup
    obtain ⟨isSession, isParent⟩ := mem_filter.mp inStore
    obtain ⟨isRow, named⟩ := mem_filter.mp inMailbox
    obtain ⟨other, inDelegations, isDone, -, sameId⟩ :=
      sound.meant session isSession row isRow isObservation
    have sameKey := Option.some.inj ((beq_iff_eq.mp named).symm.trans sameId)
    have same := id_of_clientInputId (sound.drawn delegation mem)
      (sound.drawn other inDelegations) sameKey
    obtain rfl := inj_on_of_nodup_map sound.history.distinct mem inDelegations same
    cases hStatus : delegation.status with
    | done => exact .inl rfl
    | doneWithFailures => exact .inr rfl
    | _ =>
      rw [hStatus] at isDone
      cases isDone
  · intro run mem noneSkipped delegation wasCompleted
    obtain ⟨finished, ok⟩ := sound.repaired run mem
    obtain ⟨⟨now, inStore, same, -⟩, left⟩ := ok.completed delegation wasCompleted
    rw [finished, noneSkipped] at left
    obtain remains | skipped | ⟨session, isSession, isParent, named⟩ := left
    · cases remains
    · cases skipped
    · obtain ⟨row, inMailbox, isNamed⟩ := mem_map.mp named
      refine ⟨now, inStore, same, Nat.le_antisymm (wakeups_at_most_one sound now) ?_⟩
      apply length_pos_of_mem (a := row)
      refine mem_flatMap.mpr ⟨session, mem_filter.mpr ⟨isSession, ?_⟩,
        mem_filter.mpr ⟨inMailbox, ?_⟩⟩
      · rw [same.parentSessionId]
        exact beq_iff_eq.mpr isParent
      · rw [same.clientInputId]
        exact beq_iff_eq.mpr isNamed

def wakeupStart : WakeupState where
  history :=
    { store :=
        { delegations := []
          sessions :=
            [{ id := "parent"
               parentSessionId := none
               delegationId := none
               delegationSpawnIndex := none
               subagentType := none
               entries := []
               activeLeafId := none
               actions := []
               mailbox := [] }] }
      winners := [] }
  repaired := []

theorem wakeupStart_begins : WakeupsBegin wakeupStart where
  history := ⟨rfl, rfl⟩
  sessionIds := by decide
  clientInputIds := by decide
  noObservations := by decide
  repaired := rfl

def wakeupRequest : CreateDelegationRequest where
  parentSessionId := "parent"
  launchKey := "launch"
  launchShape := "shape"
  kind := .full
  workflow := none
  label := none
  expectedSubagents := 1

def wakeupDelegation : DelegationRow :=
  wakeupRequest.row { id := "delegation_1", attemptId := "attempt_1" }

def childIdles : List (Schedule WakeupProcess WakeupChoice) :=
  let fork : ContextFork :=
    { childSessionId := "child"
      subagentType := .full
      entries := []
      activeLeafId := none
      inputId := "input_1"
      task := .text "task"
      createdAt := 0 }
  [.begin (.calling (.create wakeupRequest { id := "delegation_1", attemptId := "attempt_1" })),
    .move 0 .proceed, .begin (.spawning wakeupDelegation 0 fork), .move 0 .proceed,
    .begin (.queueing "child" { session := 0, queue := 0, transcript := 0 }
      (.cancel "input_1" none)), .move 0 .proceed]

def barrierWins : List (Schedule WakeupProcess WakeupChoice) :=
  [.begin (.barrier wakeupDelegation), .move 0 (.claim .done (.inl rfl))]

def repairOf (delegations : List DelegationRow) : Schedule WakeupProcess WakeupChoice :=
  .begin (.repairing
    { completed := delegations, remaining := delegations, skipped := [], stage := .classifying })

/-- The observation of a publication, and its enqueueing. -/
def publishes : List (Schedule WakeupProcess WakeupChoice) :=
  [.move 0 (.render
      { toolCallId := "call"
        toolName := "inspect_delegation"
        argsJson := "{}"
        resultJson := "{}"
        status := .success
        summary := none }),
    .move 0 (.enqueue { session := 0, queue := 0, transcript := 0 }
      { reusedByOtherChild := false
        routeRead := .ok ()
        inputId := "input_2"
        createdAt := 1
        promotedAt := 1 })]

def repairOvertaken : List (Schedule WakeupProcess WakeupChoice) :=
  childIdles ++ [repairOf []] ++ barrierWins ++ [.move 1 .proceed]

/-- The daemon stops after the status was won, and the handoff cannot be rendered at boot. -/
def repairGivesUp : List (Schedule WakeupProcess WakeupChoice) :=
  childIdles ++ barrierWins ++ [.abort 0, repairOf [{ wakeupDelegation with status := .done }],
    .move 0 .fail, .move 0 .proceed]

/-- The daemon stops after the status was won, and the repair publishes. -/
def repairPublishes : List (Schedule WakeupProcess WakeupChoice) :=
  childIdles ++ barrierWins ++ [.abort 0, repairOf [{ wakeupDelegation with status := .done }],
    .move 0 .proceed] ++ publishes ++ [.move 0 .proceed]

def wakeupMissing (store : DelegationStore) : Bool :=
  store.delegations.any fun row => isCompleted row.status && (wakeups store row).isEmpty

theorem reaches_of_schedule {schedule : List (Schedule WakeupProcess WakeupChoice)}
    {state : Interleaving WakeupState WakeupProcess}
    (ran : schedule.foldlM wakeupProgram.step { shared := wakeupStart, processes := [] } =
      some state) : (wakeupProgram.machine WakeupsBegin).Reaches state :=
  .run (.start ⟨wakeupStart_begins, rfl⟩) ran

/-- A barrier that wins while a repair has listed what there was leaves its parent to be
told, and so does a publication that fails in the repair. -/
theorem repair_leaves_wakeup_missing :
    (∃ state : Interleaving WakeupState WakeupProcess,
      (wakeupProgram.machine WakeupsBegin).Reaches state
        ∧ state.shared.repaired.map RepairRun.skipped = [[]]
        ∧ wakeupMissing state.shared.store = true)
      ∧ ∃ state : Interleaving WakeupState WakeupProcess,
        (wakeupProgram.machine WakeupsBegin).Reaches state
          ∧ state.shared.repaired.map RepairRun.completed =
            [[{ wakeupDelegation with status := .done }]]
          ∧ wakeupMissing state.shared.store := by
  constructor
  · have ran : (repairOvertaken.foldlM wakeupProgram.step
        { shared := wakeupStart, processes := [] }).map (fun state =>
          (state.shared.repaired.map RepairRun.skipped, wakeupMissing state.shared.store)) =
            some ([[]], true) := by
      decide +kernel
    obtain ⟨state, enabled, seen⟩ := map_eq_some_iff.mp ran
    obtain ⟨skipped, missing⟩ := Prod.mk.inj seen
    exact ⟨state, reaches_of_schedule enabled, skipped, missing⟩
  · have ran : (repairGivesUp.foldlM wakeupProgram.step
        { shared := wakeupStart, processes := [] }).map (fun state =>
          (state.shared.repaired.map RepairRun.completed, wakeupMissing state.shared.store)) =
            some ([[{ wakeupDelegation with status := .done }]], true) := by
      decide +kernel
    obtain ⟨state, enabled, seen⟩ := map_eq_some_iff.mp ran
    obtain ⟨completed, missing⟩ := Prod.mk.inj seen
    exact ⟨state, reaches_of_schedule enabled, completed, missing⟩

theorem parent_is_woken_once_repaired :
    ∃ state : Interleaving WakeupState WakeupProcess,
      state.shared.repaired.map RepairRun.completed = [[{ wakeupDelegation with status := .done }]]
        ∧ wakeupMissing state.shared.store = false ∧ ParentWakeups state.shared := by
  have ran : (repairPublishes.foldlM wakeupProgram.step
      { shared := wakeupStart, processes := [] }).map (fun state =>
        (state.shared.repaired.map RepairRun.completed, wakeupMissing state.shared.store)) =
          some ([[{ wakeupDelegation with status := .done }]], false) := by
    decide +kernel
  obtain ⟨state, enabled, seen⟩ := map_eq_some_iff.mp ran
  obtain ⟨completed, published⟩ := Prod.mk.inj seen
  exact ⟨state, completed, published, parent_is_woken_once (reaches_of_schedule enabled)⟩

end PiRelay.Runtime
