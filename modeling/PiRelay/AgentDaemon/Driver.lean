import PiRelay.AgentDaemon.Outputs
import PiRelay.Library.Machine

/-! One session in the daemon. Its rows survive everything; the runtime, the tasks
and the driver lock live in memory. Whoever holds the driver runs a section of
straight code, one transaction at a time; between two of them other tasks may
change the rows. A step either advances the section in progress or is one of the
things that need no driver. -/
namespace PiRelay.Runtime

open AgentVocab AgentCore Session Store
open Library (Machine)

inductive ModelStopReason where
  | complete
  | maxOutputTokens
  | refusal
  | compaction
deriving DecidableEq

/-- What a runner brings back. -/
inductive RunnerResult where
  | modelResponse (assistant : AssistantMessage) (providerReplay : List ProviderReplayItem)
      (stopReason : ModelStopReason)
  | modelError (error : String) (overflows : Bool)
  | toolResult (result : ToolResultMessage)
deriving DecidableEq

def RunnerResult.status : RunnerResult → ActionStatus
  | .modelResponse _ _ .complete => .completed
  | .toolResult result => if result.status = .success then .completed else .error
  | _ => .error

/-- The replay that goes beside the output batch. A cut-off response hands its
replay to the session instead. -/
def RunnerResult.sidecar : RunnerResult → List ProviderReplayItem
  | .modelResponse _ providerReplay .complete => providerReplay
  | _ => []

/-- How far the compaction of a blocked model action has come. -/
inductive CompactionPhase where
  /-- The summary is being written. -/
  | running
  /-- The failure is committed; the runtime has not been told. -/
  | failed
  | reported
deriving DecidableEq

structure CompactionTask where
  job : CompactionJob
  phase : CompactionPhase
deriving DecidableEq

/-- Who holds the driver. -/
inductive Owner where
  | request
  | runner (row : RowId)
  | compaction (job : CompactionJob)
deriving DecidableEq

/-- What a section does once the session is recovered. -/
inductive AfterRecover where
  | finish
  | driveIfQueued
  | interrupt
  | drive
deriving DecidableEq

inductive AfterDispatch where
  | finish
  | drive
deriving DecidableEq

inductive AfterReady where
  | take
  | top
deriving DecidableEq

/-- The next thing the section does. -/
inductive Point where
  | recover (next : AfterRecover)
  | driveIfQueued
  | interrupt
  | cancelWork (dispatches : List PersistedAction)
  | complete (result : RunnerResult)
  | compactionFailure
  | dispatch (dispatches : List PersistedAction) (next : AfterDispatch)
  | load
  | top
  | persist
  | ready (next : AfterReady)
  | take
deriving DecidableEq

structure DriverSection where
  owner : Owner
  point : Point
deriving DecidableEq

structure Daemon where
  db : Database := {}
  active : Option RuntimeSession := none
  /-- The rows with a registered model or tool runner. -/
  runners : List RowId := []
  /-- The rows whose runner returned an error and has not yet marked them. -/
  failing : List RowId := []
  compactions : List CompactionTask := []
  /-- The compaction tasks that returned an error and have not yet dropped the
  runtime. -/
  erring : List CompactionJob := []
  driver : Option DriverSection := none

/-- What the gate and the claim make of one dispatched action. -/
inductive DispatchOutcome where
  | claimed
  | unclaimed
  | blocked
  | gateFailed

/-- What one step leaves to the outside: the ids of new entries (those drawn
before the outputs are collected and those drawn with them), the end of the
transaction, whether the queue can be read, which queued input is next, and the
fate of each dispatched action. -/
structure Choice where
  early : Nat → EntryStamp
  stamps : Nat → EntryStamp
  commit : CommitOutcome := .committed
  steerRead : Bool := true
  queued : Option RowId := none
  outcomes : List DispatchOutcome := []

namespace Daemon

variable (daemon : Daemon)

variable (owner : Owner)

def setPoint (point : Point) : Daemon :=
  { daemon with driver := some { owner, point } }

/-- The section is over and its task is done. -/
def finishSection : Daemon :=
  match owner with
  | .request => { daemon with driver := none }
  | .runner row => { daemon with driver := none, runners := daemon.runners.erase row }
  | .compaction job =>
    { daemon with driver := none, compactions := daemon.compactions.filter (·.job != job) }

/-- The section ends in an error. A runner goes on to mark its action stale, a
compaction task to drop the runtime; a request does nothing more. -/
def failSection : Daemon :=
  match owner with
  | .request => { daemon with driver := none }
  | .runner row =>
    { daemon with
      driver := none
      runners := daemon.runners.erase row
      failing := daemon.failing ++ [row] }
  | .compaction job =>
    { daemon with
      driver := none
      compactions := daemon.compactions.filter (·.job != job)
      erring := daemon.erring ++ [job] }

def blockAndSpawnAutoCompaction (row : RowId) (expected : ActionStatus) : Option Daemon :=
  match daemon.db.blockModelActionForCompaction row expected with
  | none => none
  | some (db, job) =>
    some { daemon with db, compactions := daemon.compactions ++ [{ job, phase := .running }] }

/-- The gate of a model action, and whether it may be dispatched. None when the
gate fails. -/
def gateModelDispatch (row : RowId) : DispatchOutcome → Option (Daemon × Bool)
  | .claimed | .unclaimed => some (daemon, true)
  | .gateFailed => none
  | .blocked => (daemon.blockAndSpawnAutoCompaction row .pending).map (·, false)

/-- All gates, before anything is claimed. The actions that passed are returned;
the first that fails ends its action and the dispatch. -/
def gateAll (daemon : Daemon) :
    List (PersistedAction × DispatchOutcome) →
      Daemon × Option (List (PersistedAction × DispatchOutcome))
  | [] => (daemon, some [])
  | (dispatch, outcome) :: rest =>
    match dispatch.action with
    | .cancelSessionWork => daemon.gateAll rest
    | .requestTool _ _ _ =>
      let (daemon, ready) := daemon.gateAll rest
      (daemon, ready.map ((dispatch, outcome) :: ·))
    | .requestModel _ _ _ _ =>
      match daemon.gateModelDispatch dispatch.row outcome with
      | none => ({ daemon with db := daemon.db.failUnfinishedModelAction dispatch.row }, none)
      | some (daemon, passed) =>
        let (daemon, ready) := daemon.gateAll rest
        (daemon, if passed then ready.map ((dispatch, outcome) :: ·) else ready)

def claim (ready : PersistedAction × DispatchOutcome) : Daemon :=
  let (dispatch, outcome) := ready
  match outcome, daemon.db.claimPendingAction dispatch.row with
  | .claimed, some db => { daemon with db, runners := daemon.runners ++ [dispatch.row] }
  | _, _ => daemon

def dispatchAll (dispatches : List PersistedAction)
    (outcomes : List DispatchOutcome) : Daemon × Bool :=
  match daemon.gateAll (dispatches.zip outcomes) with
  | (daemon, none) => (daemon, false)
  | (daemon, some ready) => (ready.foldl claim daemon, true)

def advanceDispatch (dispatches : List PersistedAction)
    (next : AfterDispatch) (choice : Choice) : Daemon :=
  match daemon.dispatchAll dispatches choice.outcomes with
  | (daemon, false) => daemon.failSection owner
  | (daemon, true) =>
    match next with
    | .finish => daemon.finishSection owner
    | .drive => daemon.setPoint owner .load

/-- `recover_if_needed`, for a session without open controls. None when the stored
transcript cannot be repaired. -/
def recoverIfNeeded (stamps : Nat → EntryStamp) : Option Daemon :=
  if daemon.active.isSome then some daemon
  else if daemon.db.activeLeafIsTurnBoundary then
    if daemon.db.hasUnfinishedActions && daemon.runners.isEmpty && daemon.compactions.isEmpty then
      some { daemon with db := daemon.db.markUnfinishedActionsStale }
    else some daemon
  else
    match AgentSession.fromStoredSession daemon.db.storedSession stamps with
    | .error _ => none
    | .ok recovered =>
      let stored := recovered.toStoredSession ""
      some
        { daemon with
          db := daemon.db.recoverSession (stored.entries.drop daemon.db.entries.length)
            stored.activeLeafId }

def advanceRecover (next : AfterRecover) (choice : Choice) : Daemon :=
  match daemon.recoverIfNeeded choice.stamps with
  | none => daemon.failSection owner
  | some recovered =>
    match next with
    | .finish => recovered.finishSection owner
    | .driveIfQueued => recovered.setPoint owner .driveIfQueued
    | .interrupt => recovered.setPoint owner .interrupt
    | .drive => recovered.setPoint owner .load

def advanceDriveIfQueued : Daemon :=
  if daemon.db.hasQueuedInputs && !daemon.db.hasUnfinishedActions then
    daemon.setPoint owner .load
  else daemon.finishSection owner

def ensureActiveLoaded (stamps : Nat → EntryStamp) : Option Daemon :=
  if daemon.active.isSome then some daemon
  else
    match AgentSession.fromStoredSession daemon.db.storedSession stamps with
    | .error _ => none
    | .ok session =>
      some
        { daemon with
          active := some { session, persistedActiveLeafId := daemon.db.activeLeafId } }

variable (choice : Choice)

def advanceLoad : Daemon :=
  match daemon.ensureActiveLoaded choice.stamps with
  | none => daemon.failSection owner
  | some loaded => loaded.setPoint owner .top

/-- Go on with what a persist returned. -/
def afterPersist (next : List PersistedAction → Point) : PersistResult → Daemon
  | .invalidProviderOutput runtime | .panicked runtime =>
    ({ daemon with active := some runtime }).failSection owner
  | .failed => ({ daemon with active := none }).failSection owner
  | .persisted db runtime dispatches =>
    ({ daemon with db, active := some runtime }).setPoint owner (next dispatches)

variable (runtime : RuntimeSession)

def applyAgentInput (input : AgentInput) (consumedInput : Option RowId) (choice : Choice)
    (next : List PersistedAction → Point) : Daemon :=
  match runtime.session.enqueueInput input with
  | .error _ => daemon.failSection owner
  | .ok session =>
    daemon.afterPersist owner next
      (persistActiveOutputs daemon.db { runtime with session } none consumedInput []
        choice.stamps choice.commit)

/-- Freshly dispatched work ends the loop. -/
def dispatchAndCheck (next : AfterReady) (dispatches : List PersistedAction) : Point :=
  if dispatches.isEmpty then .ready next else .dispatch dispatches .finish

/-- The chosen queued input, if it may be taken. -/
def takeNextQueuedInput (steerOnly : Bool) : Option (RowId × QueuedInput) :=
  match choice.queued with
  | none => none
  | some input =>
    match daemon.db.queuedInputs[input]? with
    | none => none
    | some queued =>
      if queued.status == .queued && (!steerOnly || queued.priority == .steer) then
        some (input, queued)
      else none

/-- Hand a queued input to the session and persist its consumption. -/
def consume (input : RowId) (queued : QueuedInput) (choice : Choice) : Daemon :=
  daemon.applyAgentInput owner runtime
    (agentInputFromQueuedPriority queued.priority queued.content) (some input) choice
    (dispatchAndCheck .top)

/-- `consume_ready_steer`. -/
def advanceTop : Daemon :=
  match daemon.active with
  | none => daemon.finishSection owner
  | some runtime =>
    if runtime.session.core.isReadyToContinue then
      match daemon.takeNextQueuedInput choice true with
      | none => daemon.setPoint owner .persist
      | some (input, queued) => daemon.consume owner runtime input queued choice
    else daemon.setPoint owner .persist

def advancePersist : Daemon :=
  match daemon.active with
  | none => daemon.finishSection owner
  | some runtime =>
    daemon.afterPersist owner (dispatchAndCheck .take)
      (persistActiveOutputs daemon.db runtime none none [] choice.stamps choice.commit)

def advanceReady (next : AfterReady) : Daemon :=
  let pending := daemon.db.pendingActionsForDispatch
  if pending.isEmpty then
    daemon.setPoint owner (match next with
      | .take => .take
      | .top => .top)
  else daemon.setPoint owner (.dispatch pending .finish)

/-- The next queued input is taken once no action is unfinished; without one the
session goes idle and the runtime is dropped. -/
def advanceTake : Option Daemon :=
  if daemon.db.hasUnfinishedActions then some (daemon.finishSection owner)
  else if daemon.db.hasQueuedInputs then
    match daemon.takeNextQueuedInput choice false, daemon.active with
    | some (input, queued), some runtime => some (daemon.consume owner runtime input queued choice)
    | some _, none => some (daemon.setPoint owner .top)
    | none, _ => none
  else some (({ daemon with active := none }).finishSection owner)

/-- The session once the model's result is enqueued; none for a tool's result. -/
def enqueueModelResult (session : AgentSession) (actionId : ActionId) (turnId : TurnId)
    (stamps : Nat → EntryStamp) : RunnerResult → Option AgentSession
  | .modelResponse assistant _ .complete =>
    some (session.enqueueSessionInput (.modelCompleted actionId turnId assistant) stamps)
  | .modelResponse assistant providerReplay .maxOutputTokens =>
    some (session.enqueueSessionInput
      (.modelMaxOutputTokens actionId turnId assistant providerReplay
        "provider response hit max_output_tokens") stamps)
  | .modelResponse _ _ .refusal =>
    (session.enqueueInput
      (.modelFailed actionId turnId "provider refused the request")).toOption
  | .modelResponse _ _ .compaction =>
    (session.enqueueInput (.modelFailed actionId turnId
      "unexpected provider compaction stop during an ordinary model turn")).toOption
  | .modelError error _ => (session.enqueueInput (.modelFailed actionId turnId error)).toOption
  | .toolResult _ => none

/-- The locked part of `run_model_turn`. A context overflow blocks the action for
a compaction instead of completing it. -/
def completeModel (row : RowId)
    (action : ActionRow) (result : RunnerResult) (choice : Choice) : Option Daemon :=
  match result with
  | .modelError _ true =>
    match daemon.blockAndSpawnAutoCompaction row .running with
    | none => some (daemon.failSection owner)
    | some blocked => some (blocked.finishSection owner)
  | result =>
    match enqueueModelResult runtime.session action.actionId action.turnId choice.early result with
    | none => none
    | some session =>
      some (daemon.afterPersist owner (.dispatch · .drive)
        (persistActiveOutputs daemon.db { runtime with session }
          (some { row, status := result.status }) none result.sidecar choice.stamps
          choice.commit))

/-- The locked part of `run_tool_turn`. When the batch of tools is done, a queued
steer goes in before the model is asked again. -/
def completeTool (row : RowId)
    (action : ActionRow) (result : ToolResultMessage) (choice : Choice) : Daemon :=
  match runtime.session.enqueueInput (.toolCompleted action.actionId action.turnId result) with
  | .error _ => daemon.failSection owner
  | .ok session =>
    let session := session.drive choice.early
    let persist (session : AgentSession) (consumed : Option RowId) : Daemon :=
      daemon.afterPersist owner (.dispatch · .drive)
        (persistActiveOutputs daemon.db { runtime with session }
          (some { row, status := (RunnerResult.toolResult result).status }) consumed []
          choice.stamps choice.commit)
    if session.core.isReadyToContinue then
      if !choice.steerRead then
        ({ daemon with active := some { runtime with session } }).failSection owner
      else
        match daemon.takeNextQueuedInput choice true with
        | none => persist session none
        | some (input, queued) =>
          match session.enqueueInput
              (agentInputFromQueuedPriority queued.priority queued.content) with
          | .error _ =>
            ({ daemon with active := some { runtime with session } }).failSection owner
          | .ok session => persist session (some input)
    else persist session none

/-- A runner that comes back to an action no longer running leaves it alone. -/
def advanceComplete (row : RowId) (result : RunnerResult) (choice : Choice) : Option Daemon :=
  if !daemon.db.actionCanComplete row then some (daemon.finishSection owner)
  else
    match daemon.active, daemon.db.actions[row]? with
    | none, _ => some (daemon.failSection owner)
    | some _, none => none
    | some runtime, some action =>
      match action.payload, result with
      | .model _, result => daemon.completeModel owner runtime row action result choice
      | .tool _, .toolResult result =>
        some (daemon.completeTool owner runtime row action result choice)
      | _, _ => none

def setPhase (job : CompactionJob) (phase : CompactionPhase) : Daemon :=
  { daemon with
    compactions := daemon.compactions.map fun task =>
      if task.job = job then { task with phase } else task }

/-- `apply_compaction_failure_to_runtime`. -/
def advanceCompactionFailure (job : CompactionJob) (choice : Choice) : Daemon :=
  let daemon := daemon.setPhase job .reported
  match daemon.active with
  | none => daemon.setPoint owner (.recover .drive)
  | some runtime =>
    daemon.applyAgentInput owner runtime
      (.modelFailed job.blockedActionId job.turnId "compaction failed before model dispatch") none
      choice (.dispatch · .drive)

def abortSessionTasks : Daemon :=
  { daemon with runners := [], compactions := [] }

def cancelWork : Daemon :=
  ({ daemon with db := daemon.db.cancelUnfinishedSessionWork }).abortSessionTasks

/-- `interrupt_session_with_driver`, up to the end of its first transaction. -/
def advanceInterrupt : Daemon :=
  match daemon.active with
  | none =>
    if daemon.db.hasUnfinishedActions then daemon.cancelWork.setPoint owner .load
    else daemon.finishSection owner
  | some runtime => daemon.applyAgentInput owner runtime .interrupt none choice .cancelWork

/-- One step of the section in progress. -/
def advance (driver : DriverSection) (choice : Choice) : Option Daemon :=
  match driver.point, driver.owner with
  | .recover next, owner => some (daemon.advanceRecover owner next choice)
  | .driveIfQueued, owner => some (daemon.advanceDriveIfQueued owner)
  | .interrupt, owner => some (daemon.advanceInterrupt owner choice)
  | .cancelWork dispatches, owner =>
    some (daemon.cancelWork.setPoint owner (.dispatch dispatches .drive))
  | .complete result, .runner row => daemon.advanceComplete (.runner row) row result choice
  | .complete _, _ => none
  | .compactionFailure, .compaction job =>
    some (daemon.advanceCompactionFailure (.compaction job) job choice)
  | .compactionFailure, _ => none
  | .dispatch dispatches next, owner => some (daemon.advanceDispatch owner dispatches next choice)
  | .load, owner => some (daemon.advanceLoad owner choice)
  | .top, owner => some (daemon.advanceTop owner choice)
  | .persist, owner => some (daemon.advancePersist owner choice)
  | .ready next, owner => some (daemon.advanceReady owner next)
  | .take, owner => daemon.advanceTake owner choice

end Daemon

inductive Label where
  | enqueueInput (priority : InputPriority) (content : QueuedInputContent)
  | cancelInput (input : RowId)
  /-- A request acquires the driver. -/
  | request (next : AfterRecover)
  | advance (choice : Choice)
  /-- The section in progress returns an error where it waits. -/
  | sectionFails
  /-- A runner comes back with a result and acquires the driver. -/
  | runnerReturns (row : RowId) (result : RunnerResult)
  /-- A runner ends in an error before it acquires the driver. -/
  | runnerFails (row : RowId)
  /-- A failed runner marks its action, or fails to. -/
  | markActionStale (row : RowId) (marks : Bool)
  /-- A compaction commits its failure. -/
  | compactionFails (job : CompactionJob)
  /-- A failed compaction acquires the driver. -/
  | compactionReturns (job : CompactionJob)
  /-- A compaction task ends in an error before it acquires the driver. -/
  | compactionErrs (job : CompactionJob)
  /-- A compaction task that ended in an error drops the runtime. -/
  | compactionDropsRuntime (job : CompactionJob)
  | dropRuntime
  /-- The process starts again, and a running delegation keeps its pending rows. -/
  | restart (delegated : Bool)

namespace Daemon

/-- Begin a section if the driver is free. -/
def acquire (daemon : Daemon) (owner : Owner) (point : Point) : Option Daemon :=
  match daemon.driver with
  | none => some (daemon.setPoint owner point)
  | some _ => none

def step (daemon : Daemon) : Label → Option Daemon
  | .enqueueInput priority content =>
    some { daemon with db := daemon.db.enqueueUserInput priority content }
  | .cancelInput input => some { daemon with db := daemon.db.cancelQueuedInput input }
  | .request next => daemon.acquire .request (.recover next)
  | .advance choice =>
    match daemon.driver with
    | none => none
    | some driver => daemon.advance driver choice
  | .sectionFails =>
    match daemon.driver with
    | none => none
    | some driver => some (daemon.failSection driver.owner)
  | .runnerReturns row result =>
    if row ∈ daemon.runners then daemon.acquire (.runner row) (.complete result) else none
  | .runnerFails row =>
    if row ∈ daemon.runners ∧ ∀ driver ∈ daemon.driver, driver.owner ≠ .runner row then
      some
        { daemon with
          runners := daemon.runners.erase row
          failing := daemon.failing ++ [row] }
    else none
  | .markActionStale row marks =>
    if row ∈ daemon.failing then
      let db := if marks then daemon.db.markActionStale row else daemon.db
      some { daemon with db, failing := daemon.failing.erase row }
    else none
  | .compactionFails job =>
    if { job, phase := .running } ∈ daemon.compactions then
      match daemon.db.failCompactionAction job with
      | none => some { daemon with compactions := daemon.compactions.filter (·.job != job) }
      | some db => some (({ daemon with db }).setPhase job .failed)
    else none
  | .compactionReturns job =>
    if { job, phase := .failed } ∈ daemon.compactions then
      daemon.acquire (.compaction job) .compactionFailure
    else none
  | .compactionErrs job =>
    if { job, phase := .running } ∈ daemon.compactions then
      some
        { daemon with
          compactions := daemon.compactions.filter (·.job != job)
          erring := daemon.erring ++ [job] }
    else none
  | .compactionDropsRuntime job =>
    if job ∈ daemon.erring then
      some { daemon with active := none, erring := daemon.erring.erase job }
    else none
  | .dropRuntime =>
    match daemon.driver with
    | none => some { daemon with active := none }
    | some _ => none
  | .restart delegated => some { db := daemon.db.markAllUnfinishedActionsStale delegated }

/-- All runs of one session. -/
def machine : Machine Daemon Label := .ofSteps (· = {}) step

end Daemon

end PiRelay.Runtime
