import PiRelay.AgentDaemon.ProviderReplay

/-! Every step of a section keeps the session and its actions together, unless it
ends an action the session waits for. -/
namespace PiRelay.Runtime

open AgentVocab AgentCore Session Store AgentSession List Option

theorem sessionAt_atRest {store : TranscriptStore} (boundary : store.isTurnBoundary) :
    (sessionAt store).AtRest where
  inStep := ⟨rfl, by simp [sessionAt, AgentCoreLoop.resumeAt, Mailbox.OnlyCompletions],
    boundary.symm⟩
  ledger := .of_settled rfl rfl rfl (.inl rfl)
  rests := ⟨rfl, fun _ _ _ _ => by simp [sessionAt, AgentCoreLoop.resumeAt]⟩

theorem extendLastAssistant_isSome (providerReplay : List ProviderReplayItem)
    {entries : List TranscriptStorageNode} {assistant : AssistantMessage}
    (shown : .assistantMessage assistant ∈ entries.map (·.item)) :
    (extendLastAssistant providerReplay entries).isSome := by
  induction entries with
  | nil => cases shown
  | cons entry rest ih =>
    rw [extendLastAssistant]
    cases hRest : extendLastAssistant providerReplay rest with
    | some => rfl
    | none =>
      rcases mem_cons.mp shown with here | later
      · have hItem : entry.item = .assistantMessage assistant := here.symm
        rw [hItem]
        rfl
      · have found := ih later
        rw [hRest] at found
        cases found

variable {consumedInput : Option RowId}

theorem PersistsTo.frame {db after : Database} {runtime persisted : RuntimeSession}
    {actionUpdate : Option ActionUpdate}
    {providerReplay : List ProviderReplayItem} {stamps : Nat → EntryStamp} {commit : CommitOutcome}
    {dispatches : List PersistedAction}
    (persistsTo : PersistsTo db runtime actionUpdate consumedInput providerReplay stamps commit
      (.persisted after persisted dispatches)) :
    persisted.session = (driven runtime stamps).session ∧
      after.queuedInputs = db.queueAfter consumedInput ∧ db.targets <+: after.targets := by
  cases persistsTo with
  | nothing _ noObligations =>
    simp only [OutputBatch.hasDurableObligations, outputBatch, Bool.or_eq_false_iff,
      isSome_eq_false_iff, isNone_iff_eq_none] at noObligations
    rw [noObligations.2]
    exact ⟨rfl, rfl, prefix_rfl⟩
  | committed _ persists => exact ⟨rfl, persists.queuedInputs, persists.targets⟩

theorem shown_after {db after : Database} (shown : db.Shown)
    (hQueue : after.queuedInputs = db.queueAfter consumedInput)
    (grows : db.entries.map (·.item) ⊆ after.entries.map (·.item))
    (consumed : ∀ input queued, consumedInput = some input →
      db.queuedInputs[input]? = some queued →
      queued.content.item ∈ after.entries.map (·.item)) : after.Shown := by
  intro queued mem isConsumed
  rw [hQueue] at mem
  cases hInput : consumedInput with
  | none =>
    rw [hInput] at mem
    exact grows (shown queued mem isConsumed)
  | some input =>
    rw [hInput, Database.queueAfter, Database.setInputStatus] at mem
    obtain ⟨_, hPosition⟩ := mem_iff_getElem?.mp mem
    rw [getElem?_modify, Option.map_eq_map, map_eq_some_iff] at hPosition
    obtain ⟨old, hOld, hQueued⟩ := hPosition
    split at hQueued
    · rename_i same
      rw [← hQueued]
      exact consumed input old hInput (same ▸ hOld)
    · obtain rfl : old = queued := hQueued
      exact grows (shown old (mem_iff_getElem?.mpr ⟨_, hOld⟩) isConsumed)

variable {session : AgentSession}

theorem drive_shows_item {item : TranscriptItem}
    (stamps : Nat → EntryStamp) (emits : item ∈ session.core.drive.transcriptItemOutbox) :
    item ∈ (session.drive stamps).transcriptStore.nodes.map (·.item) := by
  rw [drive_nodes, map_append, drivenNodes, appendedNodes_items]
  exact mem_append_right _ emits

theorem atRest_drained (atRest : session.AtRest)
    (events : List SessionEvent) (actions : List SessionAction) :
    ({ session with eventOutbox := events, actionOutbox := actions } : AgentSession).AtRest :=
  ⟨⟨⟨atRest.inStep.drained, atRest.inStep.completions, atRest.inStep.agrees⟩,
    ⟨atRest.ledger.drained, atRest.ledger.accounts⟩⟩, atRest.rests⟩

namespace Daemon

variable {strict : Bool} {daemon : Daemon} {owner : Owner} {choice : Choice}
  {runtime : RuntimeSession}

theorem Live.driven (live : daemon.Live strict runtime) (stamps : Nat → EntryStamp) :
    daemon.Live strict (driven runtime stamps) := by
  obtain ⟨hCore, hStore, hPending⟩ := live.atRest.drive_unchanged stamps
  have driven := live.atRest.drive stamps
  refine ⟨⟨live.synced.nodup, ?_, ?_, live.synced.persisted, rfl, rfl⟩, ?_, ?_, ?_⟩
  · show (runtime.session.drive stamps).transcriptStore.nodes.map _ = _
    rw [hStore]
    exact live.synced.nodes
  · show (runtime.session.drive stamps).transcriptStore.activeLeafId = _
    rw [hStore]
    exact live.synced.leaf
  · exact atRest_drained driven [] []
  · intro noErring target mem
    have covered := live.covers noErring target (hPending ▸ mem)
    rw [live.synced.actions] at covered
    exact covered
  · intro isStrict
    show (runtime.session.drive stamps).core.mailbox = {}
    rw [hCore]
    exact live.empty isStrict

/-- What a drive emits has its rows once it is persisted. -/
theorem RowsKept.afterPersist (rows : daemon.RowsKept strict) (holds : daemon.Holds owner)
    (hPersisted : runtime.persistedActiveLeafId = daemon.db.activeLeafId)
    (persistable : Persistable false daemon.db.entries choice session)
    (survives : choice.commit ≠ .panicked) (atRest : (session.drive choice.stamps).AtRest)
    (empty : strict → (session.drive choice.stamps).core.mailbox = {})
    {actionUpdate : Option ActionUpdate} {providerReplay : List ProviderReplayItem}
    (covers : daemon.erring = [] → ∀ status,
      Covers daemon.Owed (daemon.db.actionsAfter status actionUpdate) session)
    (consumed : strict → ∀ input queued, consumedInput = some input →
      daemon.db.queuedInputs[input]? = some queued →
      queued.content.item ∈ (session.drive choice.stamps).transcriptStore.nodes.map (·.item))
    (attaches : (attachProviderReplay
        (collectRuntimeOutputs { runtime with session } choice.stamps).entries providerReplay).isSome =
        true ∨ daemon.Live strict (driven { runtime with session } choice.stamps))
    {next : List PersistedAction → Point}
    (cancelled : ∀ dispatches others, next dispatches = .cancelWork others →
      (session.drive choice.stamps).outstandingActions.pending = []) :
    (daemon.afterPersist owner next (persistActiveOutputs daemon.db { runtime with session }
      actionUpdate consumedInput providerReplay choice.stamps choice.commit)).Tracked strict := by
  have persistsTo := persistActiveOutputs_persistsTo daemon.db { runtime with session } actionUpdate
    consumedInput providerReplay choice.stamps choice.commit
  generalize persistActiveOutputs daemon.db { runtime with session } actionUpdate consumedInput
    providerReplay choice.stamps choice.commit = result at persistsTo
  cases hResult : result with
  | invalidProviderOutput =>
    rw [hResult] at persistsTo
    cases persistsTo with
    | invalidProviderOutput unattached =>
      rw [unattached] at attaches
      have live := attaches.resolve_left (by simp)
      apply Kept.failSection
      refine ⟨⟨rows.nodup, rows.shown, rows.jobs, rows.distinct⟩, ?_⟩
      intro runtime hRuntime
      cases hRuntime
      exact ⟨live.synced, live.atRest, live.covers, live.empty⟩
  | panicked =>
    rw [hResult] at persistsTo
    cases persistsTo with
    | panicked hCommit => exact absurd hCommit survives
  | failed =>
    apply Kept.failSection
    exact rows.drop rfl rfl (List.Sublist.refl _)
  | persisted after persisted dispatches =>
    rw [hResult] at persistsTo
    obtain ⟨_, mirror⟩ := persistable.mirror
    obtain ⟨synced, hItems⟩ := persistsTo.synced mirror hPersisted persistable.fresh (by simp)
    obtain ⟨hSession, hQueue, hTargets⟩ := persistsTo.frame
    have sameItems := items_of_view synced.nodes
    rw [hSession] at sameItems
    have kept : ({ daemon with db := after, active := some persisted } : Daemon).Kept strict := by
      refine ⟨⟨synced.nodup, ?_, ?_, rows.distinct⟩, ?_⟩
      · intro isStrict
        apply shown_after (rows.shown isStrict) hQueue
        · rw [hItems]
          exact subset_append_left _ _
        · intro input queued hInput hQueued
          have shown := consumed isStrict input queued hInput hQueued
          rw [← sameItems]
          exact shown
      · intro task mem
        exact (rows.jobs task mem).mono hTargets
      · intro runtime hRuntime
        cases hRuntime
        refine ⟨synced, ?_, fun noErring => persistsTo.covers (covers noErring), ?_⟩
        · rw [hSession]
          exact atRest_drained atRest [] []
        · rw [hSession]
          exact empty
    apply kept.setPoint
    refine ⟨fun _ => .inl rfl, fun job hOwner => (holds.rows job hOwner).mono hTargets,
      fun _ => holds.reported, ?_⟩
    intro others runtime hPoint hRuntime
    cases hRuntime
    rw [hSession]
    exact cancelled dispatches others hPoint

theorem RowsKept.applyAgentInput (rows : daemon.RowsKept strict)
    (holds : daemon.Holds owner) (synced : Synced false daemon.db runtime)
    (atRest : runtime.session.AtRest) (fresh : choice.Fresh daemon.db)
    (survives : choice.commit ≠ .panicked) {input : AgentInput}
    (plain : ∀ actionId turnId assistant, input ≠ .modelCompleted actionId turnId assistant)
    (noTool : input.isToolCompletion = false)
    (empties : strict → runtime.session.core.mailbox = {} ∧
      runtime.session.core.state.takesInput input) (covers : daemon.erring = [] →
      Covers daemon.Owed daemon.db.actions (runtime.session.enqueueAccepted input))
    (consumed : strict → ∀ row queued, consumedInput = some row →
      daemon.db.queuedInputs[row]? = some queued → input.item = some queued.content.item)
    {next : List PersistedAction → Point}
    (cancelled : ∀ dispatches others, next dispatches = .cancelWork others →
      ((runtime.session.enqueueAccepted input).drive
        choice.stamps).outstandingActions.pending = []) :
    (daemon.applyAgentInput owner runtime input consumedInput choice next).Tracked strict := by
  have accepts : runtime.session.enqueueInput input =
      .ok (runtime.session.enqueueAccepted input) := by
    cases input with
    | modelCompleted actionId turnId assistant => exact absurd rfl (plain actionId turnId assistant)
    | _ => rfl
  have distinct : InputDistinct input := .of_plain plain
  rw [Daemon.applyAgentInput, accepts]
  apply rows.afterPersist holds synced.persisted
    ((synced.persistable fresh).enqueueAccepted input) survives
    (atRest.enqueueAccepted_drive distinct noTool choice.stamps)
  · intro isStrict
    obtain ⟨empty, takes⟩ := empties isStrict
    exact enqueueAccepted_drive_mailbox empty takes choice.stamps
  · exact fun noErring _ => covers noErring
  · intro isStrict row queued hRow hQueued
    obtain ⟨empty, takes⟩ := empties isStrict
    exact drive_shows_item choice.stamps
      (enqueueAccepted_shown empty takes (consumed isStrict row queued hRow hQueued))
  · exact .inl rfl
  · exact cancelled

theorem takeNextQueuedInput_some {steerOnly : Bool} {input : RowId} {queued : QueuedInput}
    (takes : daemon.takeNextQueuedInput choice steerOnly = some (input, queued)) :
    daemon.db.queuedInputs[input]? = some queued ∧ (steerOnly → queued.priority = .steer) := by
  rw [takeNextQueuedInput] at takes
  split at takes
  · cases takes
  · split at takes
    · cases takes
    · rename_i found hFound
      split at takes
      · rename_i allowed
        cases takes
        refine ⟨hFound, ?_⟩
        rintro rfl
        simp only [Bool.and_eq_true, Bool.not_true, Bool.false_or, beq_iff_eq] at allowed
        exact allowed.2
      · cases takes

theorem RowsKept.rewrite (rows : daemon.RowsKept strict) {db : Database}
    (noRuntime : daemon.active = none) (nodup : (entryIds db.entries).Nodup)
    (shown : strict → db.Shown) (grows : daemon.db.targets <+: db.targets) :
    ({ daemon with db } : Daemon).Kept strict where
  toRowsKept := ⟨nodup, shown, fun task mem => (rows.jobs task mem).mono grows, rows.distinct⟩
  live := by
    intro runtime hActive
    have absurd := noRuntime.symm.trans hActive
    cases absurd

section

variable (kept : daemon.Kept strict)
include kept

section

variable (holds : daemon.Holds owner)
include holds

theorem Kept.advanceRecover (fresh : choice.Fresh daemon.db) (next : AfterRecover) :
    (daemon.advanceRecover owner next choice).Tracked strict := by
  rw [Daemon.advanceRecover]
  split
  · exact kept.failSection
  · rename_i recovered hRecovered
    have recovers := recoverIfNeeded_recovers kept.nodup fresh.stamps hRecovered
    have settled : recovered.Settled := recovers.settled
    have facts : recovered.Kept strict ∧ recovered.Holds owner := by
      cases recovers with
      | live => exact ⟨kept, holds⟩
      | @boundary actions noRuntime _ targets =>
        have grows : daemon.db.targets <+: Database.targets { daemon.db with actions } := by
          rw [← targets]
          exact prefix_rfl
        exact ⟨kept.toRowsKept.rewrite noRuntime kept.nodup kept.shown grows,
          fun job hOwner => (holds.rows job hOwner).mono grows, holds.reported⟩
      | @closed items after noRuntime grown _ targets queuedInputs =>
        have grows : daemon.db.targets <+: after.targets := targets ▸ prefix_rfl
        have hEntries : after.entries =
            daemon.db.entries ++ appendedNodes daemon.db.activeLeafId items choice.stamps :=
          (congrArg TranscriptStore.nodes grown).trans
            (daemon.db.transcriptStore.appendTranscriptItems_nodes items choice.stamps)
        have nodup : (entryIds after.entries).Nodup := by
          rw [hEntries]
          exact fresh.stamps.append_nodup kept.nodup _ _
        have shown : strict → after.Shown := by
          intro isStrict queued mem isConsumed
          rw [hEntries, map_append]
          exact mem_append_left _ (kept.shown isStrict queued (queuedInputs ▸ mem) isConsumed)
        exact ⟨kept.toRowsKept.rewrite noRuntime nodup shown grows,
          fun job hOwner => (holds.rows job hOwner).mono grows, holds.reported⟩
    obtain ⟨recoveredKept, recoveredHolds⟩ := facts
    cases next with
    | finish => exact recoveredKept.finishSection recoveredHolds
    | _ =>
      exact recoveredKept.setPoint (recoveredHolds.sound (fun _ => settled) (by simp))

theorem Kept.advanceDriveIfQueued (settled : daemon.Settled) :
    (daemon.advanceDriveIfQueued owner).Tracked strict := by
  rw [Daemon.advanceDriveIfQueued]
  split
  · exact kept.setPoint (holds.sound (fun _ => settled) (by simp))
  · exact kept.finishSection holds

theorem Kept.advanceLoad (settled : daemon.Settled) :
    (daemon.advanceLoad owner choice).Tracked strict := by
  rw [Daemon.advanceLoad]
  split
  · exact kept.failSection
  · rename_i loaded hLoaded
    rcases ensureActiveLoaded_loads settled hLoaded with ⟨_, rfl⟩ | ⟨_, boundary, rfl⟩
    · exact kept.setPoint (holds.sound (by simp [Point.awaitsLoad]) (by simp))
    · have loadedKept : ({ daemon with active := some (runtimeAt daemon.db) } : Daemon).Kept
          strict := by
        refine ⟨⟨kept.nodup, kept.shown, kept.jobs, kept.distinct⟩, ?_⟩
        intro runtime hRuntime
        cases hRuntime
        exact ⟨runtimeAt_synced kept.nodup false, sessionAt_atRest boundary,
          fun _ => .of_pending rfl, fun _ => rfl⟩
      exact loadedKept.setPoint ⟨fun _ => .inl rfl, holds.rows, fun _ => holds.reported, by simp⟩

theorem Kept.advanceReady (next : AfterReady) :
    (daemon.advanceReady owner next).Tracked strict := by
  simp only [Daemon.advanceReady]
  split
  · cases next with
    | take | top => exact kept.setPoint (holds.sound (by simp [Point.awaitsLoad]) (by simp))
  · exact kept.setPoint (holds.sound (by simp [Point.awaitsLoad]) (by simp))

theorem Kept.advanceDispatch {dispatches : List PersistedAction} {next : AfterDispatch}
    (settled : next = .drive → daemon.Settled) (pass : (∃ job, owner = .compaction job) ∨
      daemon.gatesPass (dispatches.zip choice.outcomes)) :
    (daemon.advanceDispatch owner dispatches next choice).Tracked strict := by
  rw [Daemon.advanceDispatch]
  have mild := dispatchAll_mild daemon dispatches choice.outcomes
  have harmless := dispatchAll_harmless daemon dispatches choice.outcomes
  split
  · rename_i dispatched hDispatch
    rw [hDispatch] at mild harmless
    rcases pass with ⟨job, rfl⟩ | pass
    · exact kept.failCompaction mild job
    · exact (kept.harmless (harmless pass)).failSection
  · rename_i dispatched hDispatch
    have all : (daemon.gateAll (dispatches.zip choice.outcomes)).2.isSome := by
      rw [dispatchAll] at hDispatch
      split at hDispatch
      · cases hDispatch
      · rename_i hGates
        rw [hGates]
        rfl
    rw [hDispatch] at mild harmless
    have dispatchedKept := kept.harmless (harmless (gatesPass_of_gateAll _ daemon all))
    have dispatchedHolds := holds.mild mild
    cases next with
    | finish => exact dispatchedKept.finishSection dispatchedHolds
    | drive =>
      exact dispatchedKept.setPoint
        (dispatchedHolds.sound (fun _ => mild.same.settled (settled rfl)) (by simp))

end

end

section QueuedInputs

variable (priority : InputPriority) (content : QueuedInputContent)

theorem agentInput_fromInput :
    RecordedCompletion.fromInput (agentInputFromQueuedPriority priority content) = none := by
  cases content <;> cases priority <;> rfl

theorem agentInput_item :
    (agentInputFromQueuedPriority priority content).item = some content.item := by
  cases content <;> cases priority <;> rfl

theorem agentInput_plain (actionId : ActionId) (turnId : TurnId) (assistant : AssistantMessage) :
    agentInputFromQueuedPriority priority content ≠ .modelCompleted actionId turnId assistant := by
  cases content <;> cases priority <;> simp [agentInputFromQueuedPriority]

theorem agentInput_noTool :
    (agentInputFromQueuedPriority priority content).isToolCompletion = false := by
  cases content <;> cases priority <;> rfl

theorem takesInput_idle :
    AgentState.idle.takesInput (agentInputFromQueuedPriority priority content) := by
  cases content <;> cases priority <;> rfl

theorem takesInput_ready (turnId : TurnId) :
    (AgentState.readyToContinue turnId).takesInput
      (agentInputFromQueuedPriority .steer content) := by
  cases content <;> rfl

end QueuedInputs

theorem dispatchAndCheck_ne_cancelWork (next : AfterReady) (dispatches others : List PersistedAction) :
    dispatchAndCheck next dispatches ≠ .cancelWork others := by
  rw [dispatchAndCheck]
  split <;> simp

section

variable (kept : daemon.Kept strict)
include kept

section

variable (holds : daemon.Holds owner)
include holds

theorem Kept.consume (hActive : daemon.active = some runtime)
    (fresh : choice.Fresh daemon.db) (survives : choice.commit ≠ .panicked) {input : RowId}
    {queued : QueuedInput} (hQueued : daemon.db.queuedInputs[input]? = some queued)
    (idle : strict → runtime.session.core.state = .idle) :
    (daemon.consume owner runtime input queued choice).Tracked strict := by
  have live := kept.live runtime hActive
  apply kept.toRowsKept.applyAgentInput holds live.synced live.atRest fresh survives
    (agentInput_plain _ _) (agentInput_noTool _ _)
  · intro isStrict
    refine ⟨live.empty isStrict, ?_⟩
    rw [idle isStrict]
    exact takesInput_idle _ _
  · exact fun noErring => (live.covers noErring).enqueue_plain (agentInput_fromInput _ _)
  · intro _ row other hRow hOther
    cases hRow
    cases hQueued.symm.trans hOther
    exact agentInput_item _ _
  · exact fun dispatches others absurd =>
      False.elim (dispatchAndCheck_ne_cancelWork _ dispatches others absurd)

theorem Kept.advanceTop : (daemon.advanceTop owner choice).Tracked strict := by
  rw [Daemon.advanceTop]
  split
  · exact kept.finishSection holds
  · rename_i runtime hActive
    have notReady := (kept.live runtime hActive).atRest.rests.notReady
    split
    · rename_i ready
      rw [AgentCoreLoop.isReadyToContinue] at ready
      cases hState : runtime.session.core.state with
      | readyToContinue turnId => exact absurd hState (notReady turnId)
      | _ => rw [hState] at ready; cases ready
    · exact kept.setPoint (holds.sound (by simp [Point.awaitsLoad]) (by simp))

theorem Kept.advancePersist (fresh : choice.Fresh daemon.db)
    (survives : choice.commit ≠ .panicked) :
    (daemon.advancePersist owner choice).Tracked strict := by
  rw [Daemon.advancePersist]
  split
  · exact kept.finishSection holds
  · rename_i runtime hActive
    have live := kept.live runtime hActive
    apply kept.toRowsKept.afterPersist holds live.synced.persisted
      (live.synced.persistable fresh) survives (live.atRest.drive choice.stamps)
    · exact fun isStrict => drive_mailbox (live.empty isStrict) choice.stamps
    · exact fun noErring _ => live.covers noErring
    · exact fun _ input queued absurd => by cases absurd
    · exact .inl rfl
    · exact fun dispatches others absurd =>
        False.elim (dispatchAndCheck_ne_cancelWork _ dispatches others absurd)

end

end

theorem Live.pending_nil (live : daemon.Live strict runtime)
    (finished : daemon.db.hasUnfinishedActions = false) (noErring : daemon.erring = [])
    (reported : ∀ task ∈ daemon.compactions, task.phase ≠ .failed) :
    runtime.session.outstandingActions.pending = [] := by
  rw [eq_nil_iff_forall_not_mem]
  intro target mem
  have covered := live.covers noErring target mem
  rw [live.synced.actions] at covered
  rcases covered with covered | ⟨task, owes, failed, _⟩
  · exact Covered.not_of_finished finished covered
  · exact reported task owes failed

variable {after : Daemon} {result : RunnerResult} {row : RowId} {action : ActionRow}

theorem Kept.advanceTake (kept : daemon.Kept strict) (holds : daemon.Holds owner)
    (fresh : choice.Fresh daemon.db) (survives : choice.commit ≠ .panicked) (reported : strict →
      daemon.erring = [] ∧ ∀ task ∈ daemon.compactions, task.phase ≠ .failed)
    (takes : daemon.advanceTake owner choice = some after) : after.Tracked strict := by
  rw [Daemon.advanceTake] at takes
  split at takes
  · cases takes
    exact kept.finishSection holds
  · rename_i finished
    split at takes
    · split at takes
      · rename_i input queued runtime hTakes hActive
        cases takes
        apply kept.consume holds hActive fresh survives (takeNextQueuedInput_some hTakes).1
        intro isStrict
        obtain ⟨noErring, noneFailed⟩ := reported isStrict
        have live := kept.live runtime hActive
        exact (live.atRest.idle (live.pending_nil (by simpa using finished) noErring noneFailed)).1
      · cases takes
        exact kept.setPoint (holds.sound (by simp [Point.awaitsLoad]) (by simp))
      · cases takes
    · cases takes
      have dropped : ({ daemon with active := none } : Daemon).Kept strict :=
        kept.toRowsKept.drop rfl rfl (List.Sublist.refl _)
      exact dropped.finishSection ⟨holds.rows, holds.reported⟩

theorem RowsKept.cancelWork (rows : daemon.RowsKept strict) : daemon.cancelWork.RowsKept strict where
  nodup := rows.nodup
  shown := rows.shown
  jobs := nofun
  distinct := nodup_nil

theorem Holds.cancelWork (holds : daemon.Holds owner) : daemon.cancelWork.Holds owner where
  rows := fun job hOwner => (holds.rows job hOwner).mono
    (daemon.db.targets_finishUnfinished .interrupted ▸ prefix_rfl)
  reported := fun job _ task absurd => by cases absurd

theorem Kept.advanceCancelWork (kept : daemon.Kept strict) (holds : daemon.Holds owner)
    (settled : daemon.Settled) (cancelled : ∀ runtime, daemon.active = some runtime →
      runtime.session.outstandingActions.pending = []) (dispatches : List PersistedAction) :
    (daemon.cancelWork.setPoint owner (.dispatch dispatches .drive)).Tracked strict := by
  have cancelledKept : daemon.cancelWork.Kept strict := by
    refine ⟨kept.toRowsKept.cancelWork, ?_⟩
    intro runtime hActive
    have live := kept.live runtime hActive
    exact ⟨live.synced.of_rows rfl rfl, live.atRest,
      fun _ => .of_pending (cancelled runtime hActive), live.empty⟩
  exact cancelledKept.setPoint (holds.cancelWork.sound (fun _ => settled) (by simp))

theorem Kept.advanceInterrupt (kept : daemon.Kept strict) (holds : daemon.Holds owner)
    (settled : daemon.Settled) (fresh : choice.Fresh daemon.db)
    (survives : choice.commit ≠ .panicked)
    (empty : ∀ runtime, daemon.active = some runtime → runtime.session.core.mailbox = {}) :
    (daemon.advanceInterrupt owner choice).Tracked strict := by
  rw [Daemon.advanceInterrupt]
  split
  · rename_i noRuntime
    split
    · have cancelledKept : daemon.cancelWork.Kept strict := by
        refine ⟨kept.toRowsKept.cancelWork, ?_⟩
        intro runtime hActive
        have absurd := noRuntime.symm.trans hActive
        cases absurd
      exact cancelledKept.setPoint (holds.cancelWork.sound (fun _ => settled) (by simp))
    · exact kept.finishSection holds
  · rename_i runtime hActive
    have live := kept.live runtime hActive
    apply kept.toRowsKept.applyAgentInput holds live.synced live.atRest fresh survives
    · simp
    · rfl
    · exact fun isStrict => ⟨live.empty isStrict, rfl⟩
    · exact fun noErring => (live.covers noErring).enqueue_plain rfl
    · exact fun _ row queued absurd => by cases absurd
    · exact fun _ _ _ => live.atRest.interrupt_pending (empty runtime hActive) choice.stamps

theorem RowsKept.setPhase (rows : daemon.RowsKept strict) (job : CompactionJob)
    (phase : CompactionPhase) : (daemon.setPhase job phase).RowsKept strict where
  nodup := rows.nodup
  shown := rows.shown
  jobs := by
    intro task mem
    rcases mem_setPhase.mp mem with ⟨old, _⟩ | ⟨rfl, old, oldMember, rfl⟩
    · exact rows.jobs task old
    · exact rows.jobs old oldMember
  distinct := setPhase_jobs daemon job phase ▸ rows.distinct

theorem Kept.advanceCompactionFailure (kept : daemon.Kept strict) {job : CompactionJob}
    (ownRows : JobRows daemon.db job) (fresh : choice.Fresh daemon.db)
    (survives : choice.commit ≠ .panicked) :
    (daemon.advanceCompactionFailure (.compaction job) job choice).Tracked strict := by
  have rows := kept.toRowsKept.setPhase job .reported
  have holds : (daemon.setPhase job .reported).Holds (.compaction job) := by
    constructor
    · intro other hOther
      cases hOther
      exact ownRows
    · intro other hOther task mem same
      cases hOther
      rcases mem_setPhase.mp mem with ⟨_, apart⟩ | ⟨rfl, _⟩
      · exact absurd same apart
      · rfl
  rw [Daemon.advanceCompactionFailure]
  split
  · rename_i noRuntime
    have reportedKept : (daemon.setPhase job .reported).Kept strict := by
      refine ⟨rows, ?_⟩
      intro runtime hActive
      have absurd := noRuntime.symm.trans hActive
      cases absurd
    exact reportedKept.setPoint (holds.sound (by simp [Point.awaitsLoad]) (by simp))
  · rename_i runtime hActive
    have live := kept.live runtime hActive
    apply rows.applyAgentInput holds live.synced live.atRest fresh survives
    · simp
    · rfl
    · exact fun isStrict => ⟨live.empty isStrict, rfl⟩
    · intro noErring
      apply (live.covers noErring).enqueue_completion rfl live.synced.actions
        live.atRest.pending_nodup
      intro target apart covered
      refine covered.imp_right ?_
      rintro ⟨task, mem, failed, rfl⟩
      exact ⟨task, mem_setPhase.mpr (.inl ⟨mem, fun same => apart (same ▸ rfl)⟩), failed, rfl⟩
    · exact fun _ row queued absurd => by cases absurd
    · simp

/-- The result answers its action as a whole: the response is not cut off while the
session waits for it, its calls are distinct, and a tool's result names its call. -/
def wholeResult (daemon : Daemon) (row : RowId) : RunnerResult → Bool
  | .modelResponse assistant _ .complete => decide (assistant.toolCalls.map ToolCall.key).Nodup
  | .modelResponse _ _ .maxOutputTokens => !daemon.tracks row
  | .toolResult result =>
    match daemon.db.actions[row]? with
    | some { payload := .tool toolCall, .. } => result.key == toolCall.key
    | _ => true
  | _ => true

theorem enqueueModelResult_cases {session enqueued : AgentSession} {actionId : ActionId}
    {turnId : TurnId} {stamps : Nat → EntryStamp}
    (enqueues : enqueueModelResult session actionId turnId stamps result = some enqueued)
    (whole : ∀ assistant providerReplay, result = .modelResponse assistant providerReplay .complete →
      (assistant.toolCalls.map ToolCall.key).Nodup) (uncut : ∀ assistant providerReplay,
      result = .modelResponse assistant providerReplay .maxOutputTokens →
      { actionId, turnId, tool := none } ∉ session.outstandingActions.pending) :
    ∃ input completion, enqueued = session.enqueueAccepted input ∧
      RecordedCompletion.fromInput input = some completion ∧
      completion.target = { actionId, turnId, tool := none } ∧
      input.isToolCompletion = false ∧ InputDistinct input ∧
      (result.sidecar = [] ∨ ∃ assistant, input = .modelCompleted actionId turnId assistant) := by
  have failed : ∀ error, InputDistinct (.modelFailed actionId turnId error) :=
    fun error => .of_plain (by simp)
  cases result with
  | modelResponse assistant providerReplay stopReason =>
    cases stopReason with
    | complete =>
      cases enqueues
      refine ⟨.modelCompleted actionId turnId assistant, _, rfl, rfl, rfl, rfl, ?_,
        .inr ⟨assistant, rfl⟩⟩
      intro event hEvent
      cases hEvent
      exact whole assistant providerReplay rfl
    | maxOutputTokens =>
      cases enqueues
      have stale := uncut assistant providerReplay rfl
      refine ⟨.modelFailed actionId turnId "", _, ?_, rfl, rfl, rfl, failed _, .inl rfl⟩
      rw [enqueueSessionInput, acceptModelMaxOutputTokens_of_stale stale,
        enqueueAccepted_of_stale rfl stale]
    | refusal | compaction =>
      cases enqueues
      exact ⟨.modelFailed actionId turnId _, _, rfl, rfl, rfl, rfl, failed _, .inl rfl⟩
  | modelError error =>
    cases enqueues
    exact ⟨.modelFailed actionId turnId error, _, rfl, rfl, rfl, rfl, failed _, .inl rfl⟩
  | toolResult => cases enqueues

theorem Live.completes (live : daemon.Live strict runtime) (noErring : daemon.erring = [])
    {input : AgentInput} {completion : RecordedCompletion}
    (hAction : daemon.db.actions[row]? = some action)
    (reports : RecordedCompletion.fromInput input = some completion)
    (hTarget : action.target = some completion.target) (status changed : ActionStatus) :
    Covers daemon.Owed (daemon.db.actionsAfter changed (some { row, status }))
      (runtime.session.enqueueAccepted input) := by
  apply (live.covers noErring).enqueue_completion reports live.synced.actions
    live.atRest.pending_nodup
  intro target apart covered
  refine covered.imp_left fun covered => covered.modify ?_
  intro other hOther isTarget
  cases hAction.symm.trans hOther
  exact absurd (Option.some.inj (isTarget.symm.trans hTarget)) apart

theorem attachProviderReplay_isSome {entries : List TranscriptStorageNode}
    (providerReplay : List ProviderReplayItem) {assistant : AssistantMessage}
    (shown : .assistantMessage assistant ∈ entries.map (·.item)) :
    (attachProviderReplay entries providerReplay).isSome := by
  rw [attachProviderReplay]
  split
  · rfl
  · exact extendLastAssistant_isSome providerReplay shown

theorem Live.attaches (live : daemon.Live strict runtime) (fresh : choice.Fresh daemon.db)
    (actionId : ActionId) (turnId : TurnId) (assistant : AssistantMessage)
    (providerReplay : List ProviderReplayItem) :
    (attachProviderReplay
        (collectRuntimeOutputs
          { runtime with
            session := runtime.session.enqueueAccepted (.modelCompleted actionId turnId assistant) }
          choice.stamps).entries providerReplay).isSome ∨
      daemon.Live strict
        (Runtime.driven
          { runtime with
            session := runtime.session.enqueueAccepted (.modelCompleted actionId turnId assistant) }
          choice.stamps) := by
  by_cases pending : { actionId, turnId, tool := none } ∈ runtime.session.outstandingActions.pending
  · left
    have shown := live.atRest.modelCompleted_shown pending assistant
    have persistable := (live.synced.persistable fresh).enqueueAccepted
      (.modelCompleted actionId turnId assistant)
    obtain ⟨_, mirror⟩ := persistable.mirror
    refine attachProviderReplay_isSome providerReplay
      (?_ : TranscriptItem.assistantMessage assistant ∈ _)
    rw [collectRuntimeOutputs_entries mirror persistable.fresh, map_append, drivenNodes,
      appendedNodes_items]
    exact mem_append_right _ shown
  · right
    have stale : runtime.session.enqueueAccepted (.modelCompleted actionId turnId assistant) =
        runtime.session := enqueueAccepted_of_stale rfl pending
    rw [stale]
    exact live.driven choice.stamps

/-- A model completion is persisted for a kept runtime. -/
theorem Kept.completeModel (kept : daemon.Kept strict) (holds : daemon.Holds owner)
    (fresh : choice.Fresh daemon.db) (survives : choice.commit ≠ .panicked)
    (hActive : daemon.active = some runtime) (hAction : daemon.db.actions[row]? = some action)
    (unfinished : action.isUnfinished) (isModel : action.target =
      some { actionId := action.actionId, turnId := action.turnId, tool := none })
    (whole : daemon.wholeResult row result)
    (completes : daemon.completeModel owner runtime row action result choice = some after) :
    after.Tracked strict := by
  have live := kept.live runtime hActive
  rw [Daemon.completeModel.eq_def] at completes
  split at completes
  · split at completes
    · cases completes
      exact kept.failSection
    · rename_i blocked hBlocked
      cases completes
      have harmless := blockAndSpawnAutoCompaction_harmless hBlocked
      exact (kept.harmless harmless).finishSection (holds.mild harmless.toMild)
  · split at completes
    · cases completes
    · rename_i session enqueues
      cases completes
      have distinctCalls : ∀ assistant providerReplay,
          result = .modelResponse assistant providerReplay .complete →
          (assistant.toolCalls.map ToolCall.key).Nodup := by
        rintro assistant providerReplay rfl
        exact of_decide_eq_true whole
      have uncut : ∀ assistant providerReplay,
          result = .modelResponse assistant providerReplay .maxOutputTokens →
          { actionId := action.actionId, turnId := action.turnId, tool := none } ∉
            runtime.session.outstandingActions.pending := by
        rintro assistant providerReplay rfl
        simpa [wholeResult, tracks, hActive, hAction, unfinished, isModel] using whole
      obtain ⟨input, completion, rfl, reports, hTarget, noTool, distinct, sidecar⟩ :=
        enqueueModelResult_cases enqueues distinctCalls uncut
      have atRest := live.atRest.enqueueAccepted_drive distinct noTool choice.stamps
      apply kept.toRowsKept.afterPersist holds live.synced.persisted
        ((live.synced.persistable fresh).enqueueAccepted input) survives atRest
      · intro isStrict
        apply enqueueAccepted_drive_mailbox (live.empty isStrict)
        cases input with
        | steer | followUp | daemonObservation => cases reports
        | _ => rfl
      · exact fun noErring changed =>
          live.completes noErring hAction reports (hTarget ▸ isModel) _ changed
      · exact fun _ row queued absurd => by cases absurd
      · rcases sidecar with noReplay | ⟨assistant, rfl⟩
        · rw [noReplay]
          exact .inl rfl
        · exact live.attaches fresh action.actionId action.turnId assistant result.sidecar
      · simp

theorem isReadyToContinue_iff {core : AgentCoreLoop} :
    core.isReadyToContinue ↔ ∃ turnId, core.state = .readyToContinue turnId := by
  rw [AgentCoreLoop.isReadyToContinue]
  cases core.state <;> simp

/-- A tool completion is persisted for a kept runtime. -/
theorem Kept.completeTool (kept : daemon.Kept strict) (holds : daemon.Holds owner)
    (fresh : choice.Fresh daemon.db) (survives : choice.commit ≠ .panicked)
    (reads : choice.steerRead) (hActive : daemon.active = some runtime)
    (hAction : daemon.db.actions[row]? = some action) {result : ToolResultMessage}
    (isTool : action.target = some
      { actionId := action.actionId
        turnId := action.turnId
        tool := some { id := result.toolCallId, name := result.toolName } }) :
    (daemon.completeTool owner runtime row action result choice).Tracked strict := by
  have live := kept.live runtime hActive
  have early := live.synced.fresh fresh.early
  -- The session once the result is in, and what the two ways to go on share.
  have hStore := runtime.session.enqueueAccepted_transcriptStore
    (.toolCompleted action.actionId action.turnId result)
  have persistable := ((live.synced.persistable fresh).enqueueAccepted
    (.toolCompleted action.actionId action.turnId result)).drive (hStore ▸ early) fresh.apart
  have rested := live.atRest.toolCompleted_drive action.actionId action.turnId result choice.early
  have empty : strict → ((runtime.session.enqueueAccepted
      (.toolCompleted action.actionId action.turnId result)).drive choice.early).core.mailbox = {} :=
    fun isStrict => enqueueAccepted_drive_mailbox (live.empty isStrict) rfl choice.early
  have reports : RecordedCompletion.fromInput
      (.toolCompleted action.actionId action.turnId result) =
    some (.toolCompleted action.actionId action.turnId result.toolCallId result.toolName) := rfl
  have covers : daemon.erring = [] → ∀ changed, Covers daemon.Owed (daemon.db.actionsAfter changed
          (some { row, status := (RunnerResult.toolResult result).status }))
        ((runtime.session.enqueueAccepted
          (.toolCompleted action.actionId action.turnId result)).drive choice.early) :=
    fun noErring changed =>
      (live.completes noErring hAction reports isTool _ changed).drive choice.early
  have accepts : runtime.session.enqueueInput (.toolCompleted action.actionId action.turnId result) =
    .ok (runtime.session.enqueueAccepted
      (.toolCompleted action.actionId action.turnId result)) := rfl
  simp only [Daemon.completeTool, accepts, reads, Bool.not_true, Bool.false_eq_true, if_false]
  generalize (runtime.session.enqueueAccepted
    (.toolCompleted action.actionId action.turnId result)).drive choice.early = session
    at persistable rested empty covers ⊢
  have persist : (session.drive choice.stamps).AtRest →
      (daemon.afterPersist owner (.dispatch · .drive)
        (persistActiveOutputs daemon.db { runtime with session }
          (some { row, status := (RunnerResult.toolResult result).status }) none []
          choice.stamps choice.commit)).Tracked strict := by
    intro atRest
    apply kept.toRowsKept.afterPersist holds live.synced.persisted persistable survives atRest
    · exact fun isStrict => drive_mailbox (empty isStrict) choice.stamps
    · exact covers
    · exact fun _ row queued absurd => by cases absurd
    · exact .inl rfl
    · simp
  split
  · rename_i ready
    obtain ⟨turnId, hState⟩ := isReadyToContinue_iff.mp ready
    have batchEnd := rested.resolve_left fun atRest => atRest.rests.notReady turnId hState
    split
    · exact persist (batchEnd.drive choice.stamps)
    · rename_i input queued hTakes
      obtain ⟨hQueued, isSteer⟩ := takeNextQueuedInput_some hTakes
      rw [enqueueInput_queued]
      have distinct : InputDistinct (agentInputFromQueuedPriority queued.priority queued.content) :=
        .of_plain (agentInput_plain _ _)
      have takes : session.core.state.takesInput
          (agentInputFromQueuedPriority queued.priority queued.content) := by
        rw [hState, isSteer rfl]
        exact takesInput_ready _ _
      have enqueued := batchEnd.enqueueAccepted distinct (agentInput_fromInput _ _)
      apply kept.toRowsKept.afterPersist holds live.synced.persisted
        (persistable.enqueueAccepted _) survives (enqueued.drive choice.stamps)
      · exact fun isStrict =>
          enqueueAccepted_drive_mailbox (empty isStrict) takes choice.stamps
      · exact fun noErring changed =>
          (covers noErring changed).enqueue_plain (agentInput_fromInput _ _)
      · intro isStrict other otherQueued hOther hOtherQueued
        cases hOther
        cases hQueued.symm.trans hOtherQueued
        exact drive_shows_item choice.stamps (enqueueAccepted_shown (empty isStrict)
          takes (agentInput_item _ _))
      · exact .inl rfl
      · simp
  · rename_i notReady
    rcases rested with atRest | batchEnd
    · exact persist (atRest.drive choice.stamps)
    · exact absurd batchEnd.ready notReady

theorem Kept.advanceComplete (kept : daemon.Kept strict) (holds : daemon.Holds owner)
    (fresh : choice.Fresh daemon.db) (survives : choice.commit ≠ .panicked)
    (reads : choice.steerRead) (whole : daemon.wholeResult row result)
    (completes : daemon.advanceComplete owner row result choice = some after) :
    after.Tracked strict := by
  rw [Daemon.advanceComplete] at completes
  split at completes
  · cases completes
    exact kept.finishSection holds
  · rename_i canComplete
    split at completes
    · cases completes
      exact kept.failSection
    · cases completes
    · rename_i runtime action hActive hAction
      have unfinished : action.isUnfinished := by
        have running : action.status = .running := by
          simpa [Database.actionCanComplete, Database.rowHasStatus, hAction] using canComplete
        rw [ActionRow.isUnfinished, running]
        rfl
      split at completes
      · rename_i contextLeafId hPayload
        apply kept.completeModel holds fresh survives hActive hAction unfinished _ whole completes
        rw [ActionRow.target, hPayload]
      · rename_i toolCall result hPayload
        cases completes
        apply kept.completeTool holds fresh survives reads hActive hAction
        obtain ⟨_, _, _, payload⟩ := action
        obtain rfl : payload = .tool toolCall := hPayload
        have sameKey : result.key = toolCall.key := by
          simpa [wholeResult, hAction] using whole
        obtain ⟨hId, hName⟩ := Prod.mk.inj sameKey
        simp [ActionRow.target, hId, hName]
      · cases completes

end Daemon

end PiRelay.Runtime
