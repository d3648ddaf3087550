import PiRelay.AgentDaemon.Tracking

/-! The context a live model request carries and the context its leaf has in the
rows. Both are built from the same entries as long as no replay is attached on
the way to the rows: the live session never learns of an attached replay, and
the next request of the same process goes out without it. -/
namespace PiRelay.Runtime

open AgentVocab AgentCore Session Store List Option
open Library (Machine)

/-- What a step that advances no section does to transcript, runtime and driver. -/
inductive Outside (label : Label) (before after : Daemon) : Prop where
  | released (hDriver : after.driver = none)
      (hActive : after.active = before.active ∨ after.active = none)
  | continued (hDriver : after.driver = before.driver) (hActive : after.active = before.active)
  | begun (owner : Owner) (point : Point) (hDriver : after.driver = some { owner, point })
      (hActive : after.active = before.active)
      (begins : (∃ next, point = .recover next) ∨ point = .compactionFailure ∨
        ∃ row result, label = .runnerReturns row result ∧ point = .complete result)

variable {daemon : Daemon}

theorem Daemon.acquire_some {after : Daemon} {owner : Owner} {point : Point}
    (acquires : daemon.acquire owner point = some after) : after = daemon.setPoint owner point := by
  rw [Daemon.acquire] at acquires
  split at acquires
  · exact (Option.some.inj acquires).symm
  · cases acquires

/-- A step outside the driver leaves the stored transcript alone. -/
theorem Daemon.step_outside {after : Daemon} {label : Label}
    (steps : daemon.step label = some after) (uncut : daemon.Uncut label)
    (outside : ∀ choice, label ≠ .advance choice) :
    Outside label daemon after ∧ after.db.transcriptStore = daemon.db.transcriptStore := by
  cases label with
  | advance choice => exact absurd rfl (outside choice)
  | enqueueInput =>
    cases steps
    exact ⟨.continued rfl rfl, rfl⟩
  | cancelInput =>
    cases steps
    refine ⟨.continued rfl rfl, ?_⟩
    rw [Database.cancelQueuedInput]
    split <;> rfl
  | request next =>
    obtain rfl := acquire_some steps
    exact ⟨.begun _ _ rfl rfl (.inl ⟨next, rfl⟩), rfl⟩
  | sectionFails =>
    rw [step] at steps
    split at steps
    · cases steps
    · cases steps
      exact ⟨.released (by simp) (.inl (by simp)), by simp⟩
  | runnerReturns row result =>
    rw [step] at steps
    split at steps
    · obtain rfl := acquire_some steps
      exact ⟨.begun _ _ rfl rfl (.inr (.inr ⟨row, result, rfl, rfl⟩)), rfl⟩
    · cases steps
  | runnerFails | compactionErrs =>
    rw [step] at steps
    split at steps
    · cases steps
      exact ⟨.continued rfl rfl, rfl⟩
    · cases steps
  | markActionStale _ marks =>
    rw [step] at steps
    split at steps
    · cases steps
      refine ⟨.continued rfl rfl, ?_⟩
      cases marks <;> rfl
    · cases steps
  | compactionFails =>
    rw [step] at steps
    split at steps
    · split at steps
      · cases steps
        exact ⟨.continued rfl rfl, rfl⟩
      · rename_i db hFails
        cases steps
        refine ⟨.continued rfl rfl, ?_⟩
        rw [Database.failCompactionAction] at hFails
        split at hFails
        · cases hFails
          rfl
        · cases hFails
    · cases steps
  | compactionReturns =>
    rw [step] at steps
    split at steps
    · obtain rfl := acquire_some steps
      exact ⟨.begun _ _ rfl rfl (.inr (.inl rfl)), rfl⟩
    · cases steps
  | compactionDropsRuntime =>
    rw [step] at steps
    split at steps
    · cases steps
      exact ⟨.released uncut (.inr rfl), rfl⟩
    · cases steps
  | dropRuntime =>
    rw [step] at steps
    split at steps
    · rename_i free
      cases steps
      exact ⟨.released free (.inr rfl), rfl⟩
    · cases steps
  | restart =>
    cases steps
    exact ⟨.released rfl (.inr rfl), rfl⟩

/-- The request carries what the rows hold along its leaf. -/
def Stored (db : Database) (dispatch : PersistedAction) : Prop :=
  ∀ actionId turnId context leafId,
    dispatch.action = .requestModel actionId turnId context leafId →
      context = db.modelContextForLeaf leafId

/-- What holds at a point of a section. -/
structure Point.Replayed (point : Point) (daemon : Daemon) : Prop where
  settled : point.awaitsLoad = true → daemon.Settled
  stored : ∀ dispatch ∈ point.dispatches, Stored daemon.db dispatch
  replayFree : ∀ result, point = .complete result → result.sidecar = []

theorem Point.Replayed.of_plain {point : Point} (noLoad : point.awaitsLoad = false)
    (noDispatch : point.dispatches = []) (noResult : ∀ result, point ≠ .complete result) :
    point.Replayed daemon where
  settled := by
    rw [noLoad]
    nofun
  stored := by
    rw [noDispatch]
    intro dispatch mem
    cases mem
  replayFree := fun result hPoint => absurd hPoint (noResult result)

namespace Daemon

/-- Session and rows are the same forest of entries. -/
structure Agrees (daemon : Daemon) : Prop where
  rooted : daemon.db.transcriptStore.Rooted
  synced : ∀ runtime, daemon.active = some runtime → Synced true daemon.db runtime

structure Replayed (daemon : Daemon) : Prop where
  agrees : daemon.Agrees
  point : ∀ driver, daemon.driver = some driver → driver.point.Replayed daemon

namespace Agrees

variable {daemon after : Daemon} {owner : Owner}

section

variable (agrees : daemon.Agrees)
include agrees

theorem of_store (hStore : after.db.transcriptStore = daemon.db.transcriptStore)
    (hActive : after.active = daemon.active ∨ after.active = none) : after.Agrees where
  rooted := hStore ▸ agrees.rooted
  synced := by
    intro runtime hRuntime
    rcases hActive with same | none
    · exact (agrees.synced runtime (same ▸ hRuntime)).of_rows
        (congrArg TranscriptStore.nodes hStore) (congrArg TranscriptStore.activeLeafId hStore)
    · rw [none] at hRuntime
      cases hRuntime

theorem finishSection : (daemon.finishSection owner).Replayed where
  agrees := agrees.of_store (by simp) (.inl (by simp))
  point := by simp

theorem failSection : (daemon.failSection owner).Replayed where
  agrees := agrees.of_store (by simp) (.inl (by simp))
  point := by simp

theorem setPoint {point : Point} (replayed : point.Replayed daemon) :
    (daemon.setPoint owner point).Replayed where
  agrees := ⟨agrees.rooted, agrees.synced⟩
  point := by
    intro driver hDriver
    cases hDriver
    exact ⟨replayed.settled, replayed.stored, replayed.replayFree⟩

theorem contextual {runtime : RuntimeSession} (hActive : daemon.active = some runtime) :
    runtime.session.Contextual := by
  have synced := agrees.synced runtime hActive
  have hNodes : runtime.session.transcriptStore.nodes = daemon.db.entries := by
    have same := synced.nodes
    rwa [map_view_true, map_view_true] at same
  have hStore : runtime.session.transcriptStore = daemon.db.transcriptStore := by
    rw [Database.transcriptStore, ← hNodes, ← synced.leaf]
  refine ⟨hStore ▸ agrees.rooted, ?_⟩
  rw [synced.actions]
  intro actionId turnId context leafId mem
  cases mem

end

end Agrees

end Daemon

section Persisting

variable {daemon : Daemon} {owner : Owner} {runtime : RuntimeSession}
  {actionUpdate : Option ActionUpdate} {consumedInput : Option RowId} {choice : Choice}

theorem PersistsTo.stored {after : Database} {persisted : RuntimeSession}
    {dispatches : List PersistedAction}
    (persistsTo : PersistsTo daemon.db runtime actionUpdate consumedInput [] choice.stamps
      choice.commit (.persisted after persisted dispatches))
    (persistable : Persistable true daemon.db.entries choice runtime.session)
    (hPersisted : runtime.persistedActiveLeafId = daemon.db.activeLeafId)
    (contextual : runtime.session.Contextual) :
    after.transcriptStore.Rooted ∧ Synced true after persisted ∧
      ∀ dispatch ∈ dispatches, Stored after dispatch := by
  obtain ⟨_, mirror⟩ := persistable.mirror
  have synced := (persistsTo.synced mirror hPersisted persistable.fresh fun _ => rfl).1
  have drives := contextual.drive persistable.fresh
  have hNodes : (runtime.session.drive choice.stamps).transcriptStore.nodes = after.entries := by
    have same := synced.nodes
    rw [map_view_true, map_view_true] at same
    cases persistsTo with
    | nothing | committed => exact same
  have hLeaf : (runtime.session.drive choice.stamps).transcriptStore.activeLeafId =
      after.activeLeafId := by
    have same := synced.leaf
    cases persistsTo with
    | nothing | committed => exact same
  refine ⟨?_, synced, ?_⟩
  · rw [Database.transcriptStore, ← hNodes, ← hLeaf]
    exact drives.rooted
  · cases persistsTo with
    | nothing =>
      intro dispatch mem
      cases mem
    | committed _ persists =>
      intro dispatch mem actionId turnId context leafId request
      have queued : .requestModel actionId turnId context leafId ∈
          (runtime.session.drive choice.stamps).actionOutbox :=
        request ▸ persists.requested dispatch mem
      rw [(drives.requests actionId turnId context leafId queued).2, Database.modelContextForLeaf,
        ← hNodes]
      rfl

section

variable (agrees : daemon.Agrees) (hActive : daemon.active = some runtime)
  {session : AgentSession} (input : AgentInput) (survives : choice.commit ≠ .panicked)
  {next : List PersistedAction → Point}
  (dispatched : ∀ dispatches dispatch, dispatch ∈ (next dispatches).dispatches →
    dispatch ∈ dispatches) (noResult : ∀ dispatches result, next dispatches ≠ .complete result)
include agrees hActive survives dispatched noResult

theorem Daemon.Agrees.afterPersist
    (persistable : Persistable true daemon.db.entries choice session)
    (contextual : session.Contextual) :
    (daemon.afterPersist owner next (persistActiveOutputs daemon.db { runtime with session }
      actionUpdate consumedInput [] choice.stamps choice.commit)).Replayed := by
  have hPersisted := (agrees.synced runtime hActive).persisted
  have persistsTo := persistActiveOutputs_persistsTo daemon.db { runtime with session } actionUpdate
    consumedInput [] choice.stamps choice.commit
  generalize persistActiveOutputs daemon.db { runtime with session } actionUpdate consumedInput []
    choice.stamps choice.commit = result at persistsTo
  cases hResult : result with
  | invalidProviderOutput =>
    rw [hResult] at persistsTo
    cases persistsTo with
    | invalidProviderOutput unattached => cases unattached
  | panicked =>
    rw [hResult] at persistsTo
    cases persistsTo with
    | panicked hCommit => exact absurd hCommit survives
  | failed =>
    have dropped : ({ daemon with active := none } : Daemon).Agrees :=
      agrees.of_store rfl (.inr rfl)
    exact dropped.failSection
  | persisted after persisted dispatches =>
    rw [hResult] at persistsTo
    obtain ⟨rooted, synced, stored⟩ := persistsTo.stored persistable hPersisted contextual
    have agrees : ({ daemon with db := after, active := some persisted } : Daemon).Agrees := by
      refine ⟨rooted, ?_⟩
      intro runtime hRuntime
      cases hRuntime
      exact synced
    apply agrees.setPoint
    exact
      { settled := fun _ => .inl rfl
        stored := fun dispatch mem => stored dispatch (dispatched dispatches dispatch mem)
        replayFree := fun result hPoint => absurd hPoint (noResult dispatches result) }

theorem Daemon.Agrees.applyAgentInput (fresh : choice.Fresh daemon.db) :
    (daemon.applyAgentInput owner runtime input consumedInput choice next).Replayed := by
  rw [Daemon.applyAgentInput]
  split
  · exact agrees.failSection
  · rename_i session accepts
    obtain rfl := AgentSession.enqueueInput_ok accepts
    have persistable := (agrees.synced runtime hActive).persistable fresh
    exact agrees.afterPersist hActive survives dispatched noResult
      (persistable.enqueueAccepted input) ((agrees.contextual hActive).enqueueAccepted input)

end

end Persisting

theorem dispatchAndCheck_dispatches (next : AfterReady) (dispatches : List PersistedAction)
    (dispatch : PersistedAction)
    (mem : dispatch ∈ (Daemon.dispatchAndCheck next dispatches).dispatches) :
    dispatch ∈ dispatches := by
  rw [Daemon.dispatchAndCheck] at mem
  split at mem
  · cases mem
  · exact mem

theorem dispatchAndCheck_ne_complete (next : AfterReady) (dispatches : List PersistedAction)
    (result : RunnerResult) : Daemon.dispatchAndCheck next dispatches ≠ .complete result := by
  rw [Daemon.dispatchAndCheck]
  split <;> simp

namespace Daemon

variable {daemon : Daemon} {owner : Owner} {choice : Choice}
variable {runtime : RuntimeSession} {after : Daemon} {result : RunnerResult}

section

variable (agrees : daemon.Agrees)
include agrees

theorem Agrees.consume (hActive : daemon.active = some runtime) (fresh : choice.Fresh daemon.db)
    (survives : choice.commit ≠ .panicked) (input : RowId) (queued : QueuedInput) :
    (daemon.consume owner runtime input queued choice).Replayed :=
  agrees.applyAgentInput hActive _ survives (dispatchAndCheck_dispatches .top)
    (dispatchAndCheck_ne_complete .top) fresh

theorem Agrees.advanceRecover (fresh : choice.Fresh daemon.db) (next : AfterRecover) :
    (daemon.advanceRecover owner next choice).Replayed := by
  rw [Daemon.advanceRecover]
  split
  · exact agrees.failSection
  · rename_i recovered hRecovered
    have recovers := recoverIfNeeded_recovers agrees.rooted.forest.nodup fresh.stamps hRecovered
    have settled := recovers.settled
    have recoveredAgrees : recovered.Agrees := by
      cases recovers with
      | live => exact agrees
      | boundary => exact agrees.of_store rfl (.inl rfl)
      | closed noRuntime grown =>
        constructor
        · rw [grown]
          exact agrees.rooted.appendTranscriptItems fresh.stamps
        · intro runtime hRuntime
          rw [noRuntime] at hRuntime
          cases hRuntime
    have plain : ∀ point : Point, point.dispatches = [] → (∀ result, point ≠ .complete result) →
        point.Replayed recovered := by
      intro point noDispatch noResult
      refine ⟨fun _ => settled, ?_, fun result hPoint => absurd hPoint (noResult result)⟩
      rw [noDispatch]
      intro dispatch mem
      cases mem
    cases next with
    | finish => exact recoveredAgrees.finishSection
    | _ => exact recoveredAgrees.setPoint (plain _ rfl (by simp))

theorem Agrees.advanceDriveIfQueued (settled : daemon.Settled) :
    (daemon.advanceDriveIfQueued owner).Replayed := by
  rw [Daemon.advanceDriveIfQueued]
  split
  · exact agrees.setPoint ⟨fun _ => settled, by simp [Point.dispatches], by simp⟩
  · exact agrees.finishSection

theorem Agrees.cancelWork : daemon.cancelWork.Agrees :=
  agrees.of_store rfl (.inl rfl)

theorem Agrees.advanceInterrupt (settled : daemon.Settled) (fresh : choice.Fresh daemon.db)
    (survives : choice.commit ≠ .panicked) : (daemon.advanceInterrupt owner choice).Replayed := by
  rw [Daemon.advanceInterrupt]
  split
  · split
    · exact agrees.cancelWork.setPoint ⟨fun _ => settled, by simp [Point.dispatches], by simp⟩
    · exact agrees.finishSection
  · rename_i runtime hActive
    exact agrees.applyAgentInput hActive _ survives (fun _ _ mem => mem) (by simp) fresh

theorem Agrees.advanceDispatch (dispatches : List PersistedAction) (next : AfterDispatch)
    (settled : next = .drive → daemon.Settled) :
    (daemon.advanceDispatch owner dispatches next choice).Replayed := by
  have same := (dispatchAll_mild daemon dispatches choice.outcomes).same
  rw [Daemon.advanceDispatch]
  split
  · rename_i dispatched hDispatched
    rw [hDispatched] at same
    exact (agrees.of_store same.transcriptStore (.inl same.active)).failSection
  · rename_i dispatched hDispatched
    rw [hDispatched] at same
    have after := agrees.of_store same.transcriptStore (.inl same.active)
    cases next with
    | finish => exact after.finishSection
    | drive =>
      exact after.setPoint
        ⟨fun _ => same.settled (settled rfl), by simp [Point.dispatches], by simp⟩

theorem Agrees.advanceLoad (settled : daemon.Settled) :
    (daemon.advanceLoad owner choice).Replayed := by
  rw [Daemon.advanceLoad]
  split
  · exact agrees.failSection
  · rename_i loaded hLoaded
    rcases ensureActiveLoaded_loads settled hLoaded with ⟨_, rfl⟩ | ⟨_, _, rfl⟩
    · exact agrees.setPoint (.of_plain rfl rfl (by simp))
    · have after : ({ daemon with active := some (runtimeAt daemon.db) } : Daemon).Agrees := by
        refine ⟨agrees.rooted, ?_⟩
        intro runtime hRuntime
        cases hRuntime
        exact runtimeAt_synced agrees.rooted.forest.nodup true
      exact after.setPoint (.of_plain rfl rfl (by simp))

theorem Agrees.advanceTop (fresh : choice.Fresh daemon.db) (survives : choice.commit ≠ .panicked) :
    (daemon.advanceTop owner choice).Replayed := by
  have goesOn : (daemon.setPoint owner .persist).Replayed :=
    agrees.setPoint (.of_plain rfl rfl (by simp))
  rw [Daemon.advanceTop]
  split
  · exact agrees.finishSection
  · rename_i runtime hActive
    split
    · split
      · exact goesOn
      · exact agrees.consume hActive fresh survives _ _
    · exact goesOn

theorem Agrees.advancePersist (fresh : choice.Fresh daemon.db)
    (survives : choice.commit ≠ .panicked) : (daemon.advancePersist owner choice).Replayed := by
  rw [Daemon.advancePersist]
  split
  · exact agrees.finishSection
  · rename_i runtime hActive
    have persistable := (agrees.synced runtime hActive).persistable fresh
    exact agrees.afterPersist hActive survives (dispatchAndCheck_dispatches .take)
      (dispatchAndCheck_ne_complete .take) persistable (agrees.contextual hActive)

end

theorem pendingActionsForDispatch_stored (db : Database) :
    ∀ dispatch ∈ db.pendingActionsForDispatch, Stored db dispatch := by
  intro dispatch mem actionId turnId context leafId request
  obtain ⟨⟨_, _⟩, _, hDispatch⟩ := mem_filterMap.mp mem
  simp only at hDispatch
  split at hDispatch
  · cases hDispatch
    injection request with _ _ hContext hLeaf
    rw [← hContext, hLeaf]
  · cases hDispatch
    cases request
  · cases hDispatch

section

variable (agrees : daemon.Agrees)
include agrees

theorem Agrees.advanceReady (next : AfterReady) : (daemon.advanceReady owner next).Replayed := by
  simp only [Daemon.advanceReady]
  split
  · cases next with
    | take | top => exact agrees.setPoint (.of_plain rfl rfl (by simp))
  · exact agrees.setPoint
      ⟨by simp [Point.awaitsLoad], pendingActionsForDispatch_stored daemon.db, by simp⟩

section

variable (fresh : choice.Fresh daemon.db)
include fresh

theorem Agrees.advanceTake (survives : choice.commit ≠ .panicked)
    (takes : daemon.advanceTake owner choice = some after) : after.Replayed := by
  rw [Daemon.advanceTake] at takes
  split at takes
  · cases takes
    exact agrees.finishSection
  · split at takes
    · split at takes
      · rename_i hActive
        cases takes
        exact agrees.consume hActive fresh survives _ _
      · cases takes
        exact agrees.setPoint (.of_plain rfl rfl (by simp))
      · cases takes
    · cases takes
      have dropped : ({ daemon with active := none } : Daemon).Agrees :=
        agrees.of_store rfl (.inr rfl)
      exact dropped.finishSection

theorem Agrees.advanceCompactionFailure (survives : choice.commit ≠ .panicked) (job : CompactionJob) :
    (daemon.advanceCompactionFailure owner job choice).Replayed := by
  have after : (daemon.setPhase job .reported).Agrees := agrees.of_store rfl (.inl rfl)
  rw [Daemon.advanceCompactionFailure]
  split
  · exact after.setPoint (.of_plain rfl rfl (by simp))
  · rename_i runtime hActive
    exact after.applyAgentInput hActive _ survives (fun _ _ mem => mem) (by simp) fresh

theorem Agrees.enqueueModelResult (hActive : daemon.active = some runtime) {actionId : ActionId}
    {turnId : TurnId} {session : AgentSession}
    (enqueues : enqueueModelResult runtime.session actionId turnId choice.early result =
      some session) : Persistable true daemon.db.entries choice session ∧ session.Contextual := by
  have synced := agrees.synced runtime hActive
  have contextual := agrees.contextual hActive
  have persistable := synced.persistable fresh
  have early := synced.fresh fresh.early
  cases result with
  | modelResponse _ _ stopReason =>
    cases stopReason with
    | complete | maxOutputTokens =>
      cases enqueues
      exact ⟨persistable.enqueueSessionInput early fresh.apart _,
        contextual.enqueueSessionInput _ early⟩
    | refusal | compaction =>
      cases enqueues
      exact ⟨persistable.enqueueAccepted _, contextual.enqueueAccepted _⟩
  | modelError =>
    cases enqueues
    exact ⟨persistable.enqueueAccepted _, contextual.enqueueAccepted _⟩
  | toolResult => cases enqueues

section

variable (survives : choice.commit ≠ .panicked)
include survives

theorem Agrees.completeModel
    (hActive : daemon.active = some runtime) {row : RowId} {action : ActionRow}
    (replayFree : result.sidecar = [])
    (completes : daemon.completeModel owner runtime row action result choice = some after) :
    after.Replayed := by
  rw [Daemon.completeModel.eq_def] at completes
  split at completes
  · split at completes
    · cases completes
      exact agrees.failSection
    · rename_i blocked hBlocked
      cases completes
      have same := blockAndSpawnAutoCompaction_same hBlocked
      exact (agrees.of_store same.transcriptStore (.inl same.active)).finishSection
  · split at completes
    · cases completes
    · rename_i session enqueues
      cases completes
      obtain ⟨persistable, contextual⟩ := agrees.enqueueModelResult fresh hActive enqueues
      rw [replayFree]
      exact agrees.afterPersist hActive survives (fun _ _ mem => mem) (by simp) persistable
        contextual

theorem Agrees.completeTool (reads : choice.steerRead)
    (hActive : daemon.active = some runtime) (row : RowId) (action : ActionRow)
    (result : ToolResultMessage) :
    (daemon.completeTool owner runtime row action result choice).Replayed := by
  have synced := agrees.synced runtime hActive
  have early := synced.fresh fresh.early
  have persist : ∀ (session : AgentSession) (consumed : Option RowId),
      Persistable true daemon.db.entries choice session → session.Contextual →
      (daemon.afterPersist owner (.dispatch · .drive)
        (persistActiveOutputs daemon.db { runtime with session }
          (some { row, status := (RunnerResult.toolResult result).status }) consumed []
          choice.stamps choice.commit)).Replayed := by
    intro session consumed persistable contextual
    exact agrees.afterPersist hActive survives (fun _ _ mem => mem) (by simp) persistable contextual
  rw [Daemon.completeTool]
  split
  · exact agrees.failSection
  · rename_i enqueued accepts
    obtain rfl := AgentSession.enqueueInput_ok accepts
    have hNodes := runtime.session.enqueueAccepted_transcriptStore
      (.toolCompleted action.actionId action.turnId result)
    have enqueuedEarly : Session.Fresh choice.early (runtime.session.enqueueAccepted
        (.toolCompleted action.actionId action.turnId result)).transcriptStore.nodes := by
      rw [hNodes]
      exact early
    have persistable := ((synced.persistable fresh).enqueueAccepted
      (.toolCompleted action.actionId action.turnId result)).drive enqueuedEarly fresh.apart
    have contextual := ((agrees.contextual hActive).enqueueAccepted
      (.toolCompleted action.actionId action.turnId result)).drive enqueuedEarly
    simp only [reads, Bool.not_true, Bool.false_eq_true, if_false]
    split
    · split
      · exact persist _ none persistable contextual
      · rename_i queued _
        rw [enqueueInput_queued]
        exact persist _ _ (persistable.enqueueAccepted _) (contextual.enqueueAccepted _)
    · exact persist _ none persistable contextual

theorem Agrees.advanceComplete
    (reads : choice.steerRead) {row : RowId} (replayFree : result.sidecar = [])
    (completes : daemon.advanceComplete owner row result choice = some after) : after.Replayed := by
  rw [Daemon.advanceComplete] at completes
  split at completes
  · cases completes
    exact agrees.finishSection
  · split at completes
    · cases completes
      exact agrees.failSection
    · cases completes
    · rename_i runtime action hActive hAction
      split at completes
      · exact agrees.completeModel fresh survives hActive replayFree completes
      · cases completes
        exact agrees.completeTool fresh survives reads hActive _ _ _
      · cases completes

end

end

end

theorem Replayed.advance (replayed : daemon.Replayed) {driver : DriverSection}
    (hDriver : daemon.driver = some driver) (fresh : choice.Fresh daemon.db)
    (survives : choice.commit ≠ .panicked) (reads : choice.steerRead)
    (advances : daemon.advance driver choice = some after) : after.Replayed := by
  have agrees := replayed.agrees
  have point := replayed.point driver hDriver
  obtain ⟨owner, current⟩ := driver
  cases current with
  | recover next =>
    cases advances
    exact agrees.advanceRecover fresh next
  | driveIfQueued =>
    cases advances
    exact agrees.advanceDriveIfQueued (point.settled rfl)
  | interrupt =>
    cases advances
    exact agrees.advanceInterrupt (point.settled rfl) fresh survives
  | cancelWork =>
    cases advances
    exact agrees.cancelWork.setPoint ⟨fun _ => point.settled rfl, point.stored, by simp⟩
  | complete result =>
    cases owner with
    | runner =>
      exact agrees.advanceComplete fresh survives reads (point.replayFree result rfl) advances
    | request | compaction => cases advances
  | compactionFailure =>
    cases owner with
    | compaction job =>
      cases advances
      exact agrees.advanceCompactionFailure fresh survives job
    | request | runner => cases advances
  | dispatch =>
    cases advances
    apply agrees.advanceDispatch
    rintro rfl
    exact point.settled rfl
  | load =>
    cases advances
    exact agrees.advanceLoad (point.settled rfl)
  | top =>
    cases advances
    exact agrees.advanceTop fresh survives
  | persist =>
    cases advances
    exact agrees.advancePersist fresh survives
  | ready next =>
    cases advances
    exact agrees.advanceReady next
  | take => exact agrees.advanceTake fresh survives advances

end Daemon

/-- A response that completes a model action brings no replay beside it. -/
def Label.ReplayFree : Label → Prop
  | .runnerReturns _ result => result.sidecar = []
  | _ => True

namespace Daemon

/-- A step without a replay keeps live and stored transcript equal. -/
theorem Replayed.step {daemon after : Daemon} {label : Label} (replayed : daemon.Replayed)
    (uncut : daemon.Uncut label) (replayFree : label.ReplayFree)
    (steps : daemon.step label = some after) : after.Replayed := by
  by_cases inside : ∃ choice, label = .advance choice
  · obtain ⟨choice, rfl⟩ := inside
    obtain ⟨fresh, survives, reads⟩ := uncut
    rw [Daemon.step] at steps
    split at steps
    · cases steps
    · rename_i driver hDriver
      exact replayed.advance hDriver fresh survives reads steps
  · obtain ⟨outside, hStore⟩ := step_outside steps uncut fun choice hLabel =>
      inside ⟨choice, hLabel⟩
    cases outside with
    | released hDriver hActive =>
      refine ⟨replayed.agrees.of_store hStore hActive, ?_⟩
      intro driver absurd
      rw [hDriver] at absurd
      cases absurd
    | continued hDriver hActive =>
      refine ⟨replayed.agrees.of_store hStore (.inl hActive), ?_⟩
      intro driver hSame
      rw [hDriver] at hSame
      have point := replayed.point driver hSame
      refine ⟨?_, ?_, point.replayFree⟩
      · intro loads
        rw [Settled, hActive, Database.activeLeafIsTurnBoundary, hStore]
        exact point.settled loads
      · intro dispatch mem actionId turnId context leafId request
        rw [point.stored dispatch mem actionId turnId context leafId request,
          Database.modelContextForLeaf, Database.modelContextForLeaf]
        have hEntries : after.db.entries = daemon.db.entries :=
          congrArg TranscriptStore.nodes hStore
        rw [hEntries]
    | begun _ _ hDriver hActive begins =>
      refine ⟨replayed.agrees.of_store hStore (.inl hActive), ?_⟩
      intro driver hBegun
      cases hDriver.symm.trans hBegun
      rcases begins with ⟨next, rfl⟩ | rfl | ⟨row, result, rfl, rfl⟩
      · exact .of_plain rfl rfl (by simp)
      · exact .of_plain rfl rfl (by simp)
      · refine ⟨by simp [Point.awaitsLoad], by simp [Point.dispatches], ?_⟩
        rintro other hOther
        obtain rfl := Point.complete.inj hOther
        exact replayFree

def replayFreeRuns : Machine Daemon Label :=
  machine.guarded fun daemon label => daemon.Uncut label ∧ label.ReplayFree

/-- Where no completed response brings a replay, the live transcript is the stored
one in every reached state, and every dispatched model request carries, entry by
entry, the context its leaf has in the rows. -/
theorem dispatched_context_stored {daemon : Daemon} (reaches : replayFreeRuns.Reaches daemon) :
    (∀ runtime, daemon.active = some runtime →
        runtime.session.transcriptStore = daemon.db.transcriptStore) ∧
      ∀ owner dispatches next dispatch actionId turnId context leafId,
        daemon.driver = some { owner, point := .dispatch dispatches next } →
        dispatch ∈ dispatches →
        dispatch.action = .requestModel actionId turnId context leafId →
        context = daemon.db.modelContextForLeaf leafId := by
  have replayed : daemon.Replayed := by
    apply reaches.invariant
    · rintro daemon rfl
      refine ⟨⟨⟨.nil, by simp [Database.transcriptStore]⟩, by simp⟩, by simp⟩
    · rintro daemon label after _ replayed ⟨⟨uncut, replayFree⟩, steps⟩
      exact replayed.step uncut replayFree steps
  constructor
  · intro runtime hActive
    have synced := replayed.agrees.synced runtime hActive
    have hNodes := synced.nodes
    rw [map_view_true, map_view_true] at hNodes
    rw [Database.transcriptStore, ← hNodes, ← synced.leaf]
  · intro owner dispatches next dispatch actionId turnId context leafId hDriver mem request
    exact (replayed.point _ hDriver).stored dispatch mem actionId turnId context leafId request

/-- The model asks for one tool, beside the given replay, and the tool answers. The
run ends where the next model request is about to be dispatched. -/
def toolTurnScript (providerReplay : List ProviderReplayItem) : List ScriptEntry :=
  promptScript ++
    [.act (.runnerReturns 0 (.modelResponse
        { items := [.toolCall ⟨"call", "bash", "ls"⟩] } providerReplay .complete)),
      .go 2 none [], .go 3 none [.claimed], .go 3 none [], .go 3 none [], .go 3 none [],
      .go 3 none [], .go 3 none [],
      .act (.runnerReturns 1 (.toolResult ⟨"call", "bash", "ok", .success⟩)), .go 3 none []]

def toolTurnItems : List TranscriptItem :=
  [.turnStarted 1, .userMessage (.text "go"),
    .assistantMessage { items := [.toolCall ⟨"call", "bash", "ls"⟩] },
    .toolCallStarted 1 ⟨"call", "bash", "ls"⟩, .toolResult ⟨"call", "bash", "ok", .success⟩]

def toolTurnRequest : PersistedAction where
  row := 2
  action := .requestModel 3 1 { items := toolTurnItems, providerReplay := [[], [], [], [], []] }
    (some (supply 6 0).id)

def replayFreeEntry : ScriptEntry → Bool
  | .act (.runnerReturns _ result) => result.sidecar.isEmpty
  | _ => true

def replayFreeCheck (daemon : Daemon) (entry : ScriptEntry) : Bool :=
  entry.uncut daemon && replayFreeEntry entry

theorem replayFreeCheck_sound (daemon : Daemon) (entry : ScriptEntry)
    (checked : replayFreeCheck daemon entry) :
    daemon.Uncut entry.label ∧ entry.label.ReplayFree := by
  obtain ⟨uncut, replayFree⟩ := (Bool.and_eq_true _ _).mp checked
  refine ⟨ScriptEntry.uncut_sound uncut, ?_⟩
  cases entry with
  | go => trivial
  | act label =>
    cases label with
    | runnerReturns => exact isEmpty_iff.mp replayFree
    | _ => trivial

/-- Without a replay the request of the tool turn carries the stored context. -/
theorem dispatched_context_stored_toolTurn :
    ∃ daemon, replayFreeRuns.Reaches daemon ∧
      daemon.driver = some { owner := .runner 1, point := .dispatch [toolTurnRequest] .drive } ∧
      { items := toolTurnItems, providerReplay := [[], [], [], [], []] } =
        daemon.db.modelContextForLeaf (some (supply 6 0).id) := by
  have runs : ((toolTurnScript []).foldlM
      (fun daemon entry => if replayFreeCheck daemon entry then daemon.step entry.label else none)
      ({} : Daemon)).map Daemon.driver =
        some (some { owner := .runner 1, point := .dispatch [toolTurnRequest] .drive }) := by
    decide +kernel
  obtain ⟨daemon, hRun, hDriver⟩ := map_eq_some_iff.mp runs
  have reaches : replayFreeRuns.Reaches daemon :=
    Machine.Reaches.checkedRun replayFreeCheck_sound (.start rfl) hRun
  exact ⟨daemon, reaches, hDriver, (dispatched_context_stored reaches).2 _ _ _ toolTurnRequest _ _ _
    _ hDriver (.head _) rfl⟩

/-- With a replay beside the first response, the row of the assistant message has
it and the next request of the same process is dispatched without it. -/
theorem attached_replay_not_dispatched :
    ∃ daemon, machine.Reaches daemon ∧
      daemon.driver = some { owner := .runner 1, point := .dispatch [toolTurnRequest] .drive } ∧
      daemon.db.modelContextForLeaf (some (supply 6 0).id) =
        { items := toolTurnItems
          providerReplay := [[], [], [⟨.openAi, "reasoning", none⟩], [], []] } ∧
      ∀ context, toolTurnRequest.action =
          .requestModel 3 1 context (some (supply 6 0).id) →
        context ≠ daemon.db.modelContextForLeaf (some (supply 6 0).id) := by
  have runs : (((toolTurnScript [⟨.openAi, "reasoning", none⟩]).map ScriptEntry.label).foldlM step
      {}).map (fun daemon => (daemon.driver, daemon.db.modelContextForLeaf (some (supply 6 0).id))) =
        some (some { owner := .runner 1, point := .dispatch [toolTurnRequest] .drive },
          { items := toolTurnItems
            providerReplay := [[], [], [⟨.openAi, "reasoning", none⟩], [], []] }) := by
    decide +kernel
  obtain ⟨daemon, hRun, facts⟩ := map_eq_some_iff.mp runs
  obtain ⟨hDriver, hStored⟩ := Prod.mk.inj facts
  refine ⟨daemon, Machine.Reaches.run (.start rfl) hRun, hDriver, hStored, ?_⟩
  intro context request
  injection request with _ _ hContext _
  rw [hStored, ← hContext]
  simp

end Daemon

end PiRelay.Runtime
