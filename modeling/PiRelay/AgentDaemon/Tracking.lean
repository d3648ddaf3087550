import PiRelay.AgentDaemon.Coverage

/-! A kept session and the actions that stand for its requests. As long as nothing
ends such an action behind the back of the session, every request in flight has
an unfinished action, or a compaction that has failed is about to report it. -/
namespace PiRelay.Store

open AgentVocab AgentCore Session List

def CompactionJob.target (job : CompactionJob) : CompletionTarget where
  actionId := job.blockedActionId
  turnId := job.turnId
  tool := none

structure JobRows (db : Database) (job : CompactionJob) : Prop where
  blocked : db.targets[job.blockedModel]? = some (some job.target)
  own : db.targets[job.actionRow]? = some none

theorem target_of_grows {before after : List (Option CompletionTarget)} {row : RowId}
    {target : Option CompletionTarget} (grows : before <+: after)
    (hRow : before[row]? = some target) : after[row]? = some target := by
  obtain ⟨-, rfl⟩ := grows
  rw [getElem?_append_left (List.getElem?_eq_some_iff.mp hRow).1]
  exact hRow

theorem JobRows.mono {before after : Database} {job : CompactionJob}
    (grows : before.targets <+: after.targets) (rows : JobRows before job) : JobRows after job where
  blocked := target_of_grows grows rows.blocked
  own := target_of_grows grows rows.own

theorem JobRows.lt {db : Database} {job : CompactionJob} (rows : JobRows db job) :
    job.actionRow < db.targets.length :=
  (List.getElem?_eq_some_iff.mp rows.own).1

/-- Every consumed input is an item of the stored transcript. -/
def Database.Shown (db : Database) : Prop :=
  ∀ queued ∈ db.queuedInputs, queued.status = .consumed →
    queued.content.item ∈ db.entries.map (·.item)

end PiRelay.Store

namespace PiRelay.Runtime

open AgentVocab AgentCore Session Store List Option

namespace Daemon

/-- A compaction has committed its failure and has not reported it yet. -/
def Owed (daemon : Daemon) (target : CompletionTarget) : Prop :=
  ∃ task ∈ daemon.compactions, task.phase = .failed ∧ task.job.target = target

/-- The rows and the tasks, whatever the runtime. The strict invariant is about
runs that take an input only where the session can show it. -/
structure RowsKept (strict : Bool) (daemon : Daemon) : Prop where
  nodup : (entryIds daemon.db.entries).Nodup
  shown : strict = true → daemon.db.Shown
  jobs : ∀ task ∈ daemon.compactions, JobRows daemon.db task.job
  distinct : (daemon.compactions.map (·.job)).Nodup

/-- A kept runtime: in step with its rows, at rest, and with an action behind every
request. An erring compaction is about to drop it. -/
structure Live (strict : Bool) (daemon : Daemon) (runtime : RuntimeSession) : Prop where
  synced : Synced false daemon.db runtime
  atRest : runtime.session.AtRest
  covers : daemon.erring = [] → Covers daemon.Owed daemon.db.actions runtime.session
  empty : strict = true → runtime.session.core.mailbox = {}

structure Kept (strict : Bool) (daemon : Daemon) : Prop extends daemon.RowsKept strict where
  live : ∀ runtime, daemon.active = some runtime → daemon.Live strict runtime

/-- The compaction that holds the driver owes the session nothing more. -/
def Reported (daemon : Daemon) (owner : Owner) : Prop :=
  ∀ job, owner = .compaction job →
    ∀ task ∈ daemon.compactions, task.job = job → task.phase = .reported

/-- Whoever holds the driver, between its transactions. -/
structure Holds (daemon : Daemon) (owner : Owner) : Prop where
  rows : ∀ job, owner = .compaction job → JobRows daemon.db job
  reported : daemon.Reported owner

end Daemon

/-- What holds of the section in progress. -/
structure DriverSection.Sound (driver : DriverSection) (daemon : Daemon) : Prop where
  settled : driver.point.awaitsLoad = true → daemon.Settled
  rows : ∀ job, driver.owner = .compaction job → JobRows daemon.db job
  reported : driver.point ≠ .compactionFailure → daemon.Reported driver.owner
  cancelled : ∀ dispatches runtime, driver.point = .cancelWork dispatches →
    daemon.active = some runtime → runtime.session.outstandingActions.pending = []

namespace Daemon

structure Tracked (strict : Bool) (daemon : Daemon) : Prop extends daemon.Kept strict where
  driving : ∀ driver, daemon.driver = some driver → driver.Sound daemon

/-- A change of actions and tasks only. -/
structure Mild (before after : Daemon) : Prop where
  same : SameSession before after
  targets : before.db.targets <+: after.db.targets
  jobs : (∀ task ∈ before.compactions, JobRows before.db task.job) →
    ∀ task ∈ after.compactions, JobRows after.db task.job
  distinct : (∀ task ∈ before.compactions, JobRows before.db task.job) →
    (before.compactions.map (·.job)).Nodup → (after.compactions.map (·.job)).Nodup
  reported : ∀ job, JobRows before.db job → before.Reported (.compaction job) →
    after.Reported (.compaction job)

/-- A mild change that leaves every request of the kept session covered. -/
structure Harmless (before after : Daemon) : Prop extends Mild before after where
  covered : ∀ runtime target, before.active = some runtime →
    target ∈ runtime.session.outstandingActions.pending →
    Covered before.db.actions target ∨ before.Owed target →
    Covered after.db.actions target ∨ after.Owed target

section

variable {strict : Bool} {before middle after daemon : Daemon} {owner : Owner}

theorem Mild.refl (daemon : Daemon) : Mild daemon daemon where
  same := .refl daemon
  targets := prefix_rfl
  jobs := fun jobs => jobs
  distinct := fun _ distinct => distinct
  reported := fun _ _ reported => reported

theorem Mild.trans (first : Mild before middle) (second : Mild middle after) :
    Mild before after where
  same := first.same.trans second.same
  targets := first.targets.trans second.targets
  jobs := fun jobs => second.jobs (first.jobs jobs)
  distinct := fun jobs distinct => second.distinct (first.jobs jobs) (first.distinct jobs distinct)
  reported := fun job rows reported =>
    second.reported job (rows.mono first.targets) (first.reported job rows reported)

theorem Harmless.refl (daemon : Daemon) : Harmless daemon daemon where
  toMild := .refl daemon
  covered := fun _ _ _ _ covered => covered

theorem Harmless.trans (first : Harmless before middle) (second : Harmless middle after) :
    Harmless before after where
  toMild := first.toMild.trans second.toMild
  covered := fun runtime target hActive mem covered =>
    second.covered runtime target (first.same.active.trans hActive) mem
      (first.covered runtime target hActive mem covered)

theorem RowsKept.mild (rows : before.RowsKept strict) (mild : Mild before after) :
    after.RowsKept strict where
  nodup := mild.same.entries ▸ rows.nodup
  shown := by
    intro isStrict
    rw [Database.Shown, mild.same.queuedInputs, mild.same.entries]
    exact rows.shown isStrict
  jobs := mild.jobs rows.jobs
  distinct := mild.distinct rows.jobs rows.distinct

theorem Kept.harmless (kept : before.Kept strict) (harmless : Harmless before after) :
    after.Kept strict where
  toRowsKept := kept.toRowsKept.mild harmless.toMild
  live := by
    intro runtime hActive
    have hBefore : before.active = some runtime := harmless.same.active ▸ hActive
    have live := kept.live runtime hBefore
    refine ⟨live.synced.of_rows harmless.same.entries harmless.same.activeLeafId, live.atRest, ?_,
      live.empty⟩
    intro noErring
    have covers := live.covers (harmless.same.erring ▸ noErring)
    intro target mem
    have covered := covers target mem
    rw [live.synced.actions] at covered ⊢
    exact harmless.covered runtime target hBefore mem covered

theorem Reported.mild {owner : Owner} (reported : before.Reported owner)
    (rows : ∀ job, owner = .compaction job → JobRows before.db job) (mild : Mild before after) :
    after.Reported owner := by
  cases owner with
  | request | runner => exact nofun
  | compaction job => exact mild.reported job (rows job rfl) reported

theorem Mild.of_tasks (hDb : after.db = before.db) (hActive : after.active = before.active)
    (hErring : after.erring = before.erring)
    (ended : after.compactions.Sublist before.compactions) : Mild before after where
  same := ⟨by rw [hDb], by rw [hDb], by rw [hDb], hActive, hErring⟩
  targets := hDb ▸ prefix_rfl
  jobs := fun jobs task mem => hDb ▸ jobs task (ended.subset mem)
  distinct := fun _ distinct => distinct.sublist (ended.map _)
  reported := fun _ _ reported job hJob task mem =>
    reported job hJob task (ended.subset mem)

theorem Harmless.of_tasks (hDb : after.db = before.db) (hActive : after.active = before.active)
    (hErring : after.erring = before.erring) (hTasks : after.compactions = before.compactions) :
    Harmless before after where
  toMild := .of_tasks hDb hActive hErring (hTasks ▸ List.Sublist.refl _)
  covered := by
    intro runtime target _ _ covered
    rw [hDb, Owed, hTasks]
    exact covered

theorem RowsKept.of_tasks (rows : before.RowsKept strict) (hDb : after.db = before.db)
    (ended : after.compactions.Sublist before.compactions) : after.RowsKept strict where
  nodup := hDb ▸ rows.nodup
  shown := hDb ▸ rows.shown
  jobs := fun task mem => hDb ▸ rows.jobs task (ended.subset mem)
  distinct := rows.distinct.sublist (ended.map _)

theorem RowsKept.drop (rows : before.RowsKept strict) (hDb : after.db = before.db)
    (hActive : after.active = none) (ended : after.compactions.Sublist before.compactions) :
    after.Kept strict where
  toRowsKept := rows.of_tasks hDb ended
  live := by
    rw [hActive]
    intro runtime absurd
    cases absurd

theorem Holds.mild (holds : before.Holds owner) (mild : Mild before after) :
    after.Holds owner where
  rows := fun job hOwner => (holds.rows job hOwner).mono mild.targets
  reported := holds.reported.mild holds.rows mild

theorem Kept.finishSection (kept : daemon.Kept strict) (holds : daemon.Holds owner) :
    (daemon.finishSection owner).Tracked strict := by
  have harmless : Harmless daemon (daemon.finishSection owner) := by
    cases owner with
    | request | runner => exact .of_tasks rfl rfl rfl rfl
    | compaction job =>
      refine ⟨.of_tasks rfl rfl rfl filter_sublist, ?_⟩
      intro runtime target _ _ covered
      refine covered.imp_right ?_
      rintro ⟨task, mem, failed, hTarget⟩
      refine ⟨task, mem_filter.mpr ⟨mem, ?_⟩, failed, hTarget⟩
      rw [bne_iff_ne]
      intro same
      rw [holds.reported job rfl task mem same] at failed
      cases failed
  exact ⟨kept.harmless harmless, by simp⟩

theorem Live.failSection {runtime : RuntimeSession} (live : daemon.Live strict runtime) :
    (daemon.failSection owner).Live strict runtime := by
  cases owner with
  | request | runner => exact ⟨live.synced, live.atRest, live.covers, live.empty⟩
  | compaction =>
    refine ⟨live.synced, live.atRest, ?_, live.empty⟩
    intro noErring
    simp [Daemon.failSection] at noErring

theorem Kept.failSection (kept : daemon.Kept strict) :
    (daemon.failSection owner).Tracked strict where
  toRowsKept := by
    cases owner with
    | request | runner => exact kept.toRowsKept.of_tasks rfl (List.Sublist.refl _)
    | compaction => exact kept.toRowsKept.of_tasks rfl filter_sublist
  live := by
    rw [failSection_active]
    intro runtime hActive
    exact (kept.live runtime hActive).failSection
  driving := by simp

theorem Kept.failCompaction (kept : before.Kept strict) (mild : Mild before after)
    (job : CompactionJob) : (after.failSection (.compaction job)).Tracked strict where
  toRowsKept := (kept.toRowsKept.mild mild).of_tasks rfl filter_sublist
  live := by
    intro runtime hActive
    have live := kept.live runtime (mild.same.active ▸ hActive)
    refine ⟨live.synced.of_rows mild.same.entries mild.same.activeLeafId, live.atRest, ?_,
      live.empty⟩
    intro noErring
    simp [Daemon.failSection] at noErring
  driving := by simp

theorem Kept.setPoint (kept : daemon.Kept strict) {point : Point}
    (sound : DriverSection.Sound { owner, point } daemon) :
    (daemon.setPoint owner point).Tracked strict where
  toRowsKept := ⟨kept.nodup, kept.shown, kept.jobs, kept.distinct⟩
  live := by
    intro runtime hActive
    have live := kept.live runtime hActive
    exact ⟨live.synced, live.atRest, live.covers, live.empty⟩
  driving := by
    intro driver hDriver
    cases hDriver
    exact ⟨sound.settled, sound.rows, sound.reported, sound.cancelled⟩

theorem Mild.modifyAction (daemon : Daemon) (row : RowId) {change : ActionRow → ActionRow}
    (keeps : ∀ action, (change action).target = action.target) :
    Mild daemon { daemon with db := daemon.db.modifyAction row change } := by
  have hTargets := daemon.db.targets_modifyAction row keeps
  exact
    { same := ⟨rfl, rfl, rfl, rfl, rfl⟩
      targets := hTargets ▸ prefix_rfl
      jobs := fun jobs task mem => (jobs task mem).mono (hTargets ▸ prefix_rfl)
      distinct := fun _ distinct => distinct
      reported := fun _ _ reported => reported }

/-- The kept session waits for the completion of the row. -/
def tracks (daemon : Daemon) (row : RowId) : Bool :=
  match daemon.active, daemon.db.actions[row]? with
  | some runtime, some action =>
    action.isUnfinished &&
      match action.target with
      | some target => runtime.session.outstandingActions.pending.contains target
      | none => false
  | _, _ => false

variable {row : RowId} {job : CompactionJob}

theorem Harmless.finish (status : ActionStatus) (untracked : daemon.tracks row = false) :
    Harmless daemon { daemon with db := daemon.db.modifyAction row (.finish status) } where
  toMild := .modifyAction daemon row (ActionRow.finish_target status)
  covered := by
    intro runtime target hActive mem covered
    refine covered.imp_left fun covered => covered.modify ?_
    intro action hAction hTarget unfinished
    simp [tracks, hActive, hAction, hTarget, unfinished] at untracked
    exact absurd mem untracked

theorem Harmless.setStatus (daemon : Daemon) (row : RowId) {status : ActionStatus}
    (unfinished : status.isUnfinished) :
    Harmless daemon { daemon with db := daemon.db.modifyAction row (.setStatus status) } where
  toMild := .modifyAction daemon row (ActionRow.setStatus_target status)
  covered := by
    intro runtime target _ _ covered
    refine covered.imp_left fun covered => covered.modify ?_
    intro action _ hTarget _
    exact ⟨unfinished, hTarget⟩

theorem blockAndSpawnAutoCompaction_harmless {blocked : Daemon} {expected : ActionStatus}
    (blocks : daemon.blockAndSpawnAutoCompaction row expected = some blocked) :
    Harmless daemon blocked := by
  obtain ⟨db, job, hBlock, rfl⟩ := blockAndSpawnAutoCompaction_some blocks
  rw [Database.blockModelActionForCompaction] at hBlock
  split at hBlock
  · cases hBlock
  rename_i action hAction
  split at hBlock
  · rename_i model
    obtain ⟨hDb, hJob⟩ := Prod.mk.inj (Option.some.inj hBlock)
    have isModel : action.target =
        some { actionId := action.actionId, turnId := action.turnId, tool := none } := by
      rw [ActionRow.target]
      cases hPayload : action.payload with
      | model => rfl
      | tool | compaction => simp [hPayload, ActionPayload.kind] at model
    have hTargets : db.targets = daemon.db.targets ++ [none] := by
      rw [← hDb]
      simp [Database.targets, Database.modifyAction, ActionRow.target,
        map_target_modify daemon.db.actions row (ActionRow.setStatus_target .blocked)]
    have grows : daemon.db.targets <+: db.targets := hTargets ▸ prefix_append _ _
    have rows : JobRows db job := by
      refine ⟨target_of_grows grows ?_, ?_⟩
      · rw [← hJob]
        simp [Database.targets, hAction, isModel, CompactionJob.target]
      · rw [hTargets, ← hJob]
        simp [Database.targets, Database.modifyAction]
    have newRow : job.actionRow = daemon.db.targets.length := by
      rw [← hJob]
      simp [Database.targets, Database.modifyAction]
    have elsewhere : ∀ other, JobRows daemon.db other → job ≠ other := by
      rintro other others rfl
      have below := others.lt
      rw [newRow] at below
      exact absurd below (Nat.lt_irrefl _)
    have status : Harmless daemon
      { daemon with db := daemon.db.modifyAction row (.setStatus .blocked) } :=
        .setStatus daemon row rfl
    refine
      { same := blockAndSpawnAutoCompaction_same blocks
        targets := grows
        jobs := ?_
        distinct := ?_
        reported := ?_
        covered := ?_ }
    · intro jobs task mem
      rcases Library.mem_concat.mp mem with old | rfl
      · exact (jobs task old).mono grows
      · exact rows
    · intro jobs distinct
      rw [map_append, nodup_append']
      refine ⟨distinct, nodup_singleton _, ?_⟩
      intro other mem new
      obtain ⟨task, old, rfl⟩ := mem_map.mp mem
      exact elsewhere task.job (jobs task old) (mem_singleton.mp new).symm
    · intro other others reported finished hOther task mem same
      cases hOther
      rcases Library.mem_concat.mp mem with old | rfl
      · exact reported other rfl task old same
      · exact absurd same (elsewhere other others)
    · intro runtime target hActive mem covered
      rcases status.covered runtime target hActive mem covered with covered | owed
      · left
        rw [← hDb]
        exact covered.append _
      · obtain ⟨task, old, failed⟩ := owed
        exact .inr ⟨task, mem_append_left _ old, failed⟩
  · cases hBlock

theorem gateModelDispatch_harmless {gated : Daemon} {outcome : DispatchOutcome} {passed : Bool}
    (gates : daemon.gateModelDispatch row outcome = some (gated, passed)) :
    Harmless daemon gated := by
  cases outcome with
  | claimed | unclaimed =>
    cases gates
    exact .refl daemon
  | gateFailed => cases gates
  | blocked =>
    obtain ⟨blocked, hBlock, hGated⟩ := map_eq_some_iff.mp gates
    obtain ⟨rfl, _⟩ := Prod.mk.inj hGated
    exact blockAndSpawnAutoCompaction_harmless hBlock

def gatesPass (daemon : Daemon) : List (PersistedAction × DispatchOutcome) → Bool
  | [] => true
  | (dispatch, outcome) :: rest =>
    match dispatch.action with
    | .cancelSessionWork | .requestTool _ _ _ => daemon.gatesPass rest
    | .requestModel _ _ _ _ =>
      match daemon.gateModelDispatch dispatch.row outcome with
      | none => !daemon.tracks dispatch.row
      | some (gated, _) => gated.gatesPass rest

section

variable (dispatches : List (PersistedAction × DispatchOutcome))
include dispatches

theorem gateAll_mild (daemon : Daemon) : Mild daemon (daemon.gateAll dispatches).1 := by
  induction dispatches generalizing daemon with
  | nil => exact .refl daemon
  | cons first _ ih =>
    obtain ⟨dispatch, -⟩ := first
    rw [gateAll]
    cases dispatch.action with
    | cancelSessionWork | requestTool => exact ih daemon
    | requestModel =>
      simp only
      split
      · exact .modifyAction daemon dispatch.row (ActionRow.finish_target .error)
      · rename_i gated passed gates
        exact (gateModelDispatch_harmless gates).toMild.trans (ih gated)

theorem gateAll_harmless (daemon : Daemon) (pass : daemon.gatesPass dispatches) :
    Harmless daemon (daemon.gateAll dispatches).1 := by
  induction dispatches generalizing daemon with
  | nil => exact .refl daemon
  | cons first _ ih =>
    obtain ⟨dispatch, _⟩ := first
    rw [gatesPass] at pass
    rw [gateAll]
    cases hAction : dispatch.action with
    | cancelSessionWork | requestTool =>
      rw [hAction] at pass
      exact ih daemon pass
    | requestModel =>
      rw [hAction] at pass
      simp only at pass ⊢
      split
      · rename_i fails
        rw [fails] at pass
        exact .finish .error (by simpa using pass)
      · rename_i gated passed gates
        rw [gates] at pass
        exact (gateModelDispatch_harmless gates).trans (ih gated pass)

theorem gatesPass_of_gateAll (daemon : Daemon) (passed : (daemon.gateAll dispatches).2.isSome) :
    daemon.gatesPass dispatches := by
  induction dispatches generalizing daemon with
  | nil => rfl
  | cons first _ ih =>
    obtain ⟨dispatch, _⟩ := first
    rw [gateAll] at passed
    rw [gatesPass]
    cases hAction : dispatch.action with
    | cancelSessionWork =>
      rw [hAction] at passed
      exact ih daemon passed
    | requestTool =>
      rw [hAction] at passed
      exact ih daemon (by simpa using passed)
    | requestModel =>
      rw [hAction] at passed
      simp only at passed ⊢
      split
      · rename_i fails
        rw [fails] at passed
        cases passed
      · rename_i gated through gates
        rw [gates] at passed
        apply ih gated
        cases through <;> simpa using passed

end

theorem claim_harmless (daemon : Daemon) (ready : PersistedAction × DispatchOutcome) :
    Harmless daemon (daemon.claim ready) := by
  simp only [claim]
  split
  · rename_i db hClaim
    rw [Database.claimPendingAction] at hClaim
    split at hClaim
    · cases hClaim
      exact (Harmless.setStatus daemon ready.1.row rfl).trans (.of_tasks rfl rfl rfl rfl)
    · cases hClaim
  · exact .refl daemon

theorem foldl_claim_harmless (ready : List (PersistedAction × DispatchOutcome)) (daemon : Daemon) :
    Harmless daemon (ready.foldl claim daemon) := by
  induction ready generalizing daemon with
  | nil => exact .refl daemon
  | cons first _ ih => exact (claim_harmless daemon first).trans (ih _)

section

variable (daemon : Daemon) (dispatches : List PersistedAction) (outcomes : List DispatchOutcome)

theorem dispatchAll_gated : Harmless (daemon.gateAll (dispatches.zip outcomes)).1
    (daemon.dispatchAll dispatches outcomes).1 := by
  rw [dispatchAll]
  split
  · rename_i hGates
    rw [hGates]
    exact .refl _
  · rename_i ready hGates
    rw [hGates]
    exact foldl_claim_harmless ready _

theorem dispatchAll_mild : Mild daemon (daemon.dispatchAll dispatches outcomes).1 :=
  (gateAll_mild _ daemon).trans (dispatchAll_gated daemon dispatches outcomes).toMild

theorem dispatchAll_harmless (pass : daemon.gatesPass (dispatches.zip outcomes)) :
    Harmless daemon (daemon.dispatchAll dispatches outcomes).1 :=
  (gateAll_harmless _ daemon pass).trans (dispatchAll_gated daemon dispatches outcomes)

end

theorem setPhase_jobs (daemon : Daemon) (job : CompactionJob) (phase : CompactionPhase) :
    (daemon.setPhase job phase).compactions.map (·.job) = daemon.compactions.map (·.job) := by
  rw [setPhase, List.map_map]
  apply map_congr_left
  intro task _
  rw [Function.comp]
  split <;> rfl

theorem mem_setPhase {phase : CompactionPhase} {task : CompactionTask} :
    task ∈ (daemon.setPhase job phase).compactions ↔
      (task ∈ daemon.compactions ∧ task.job ≠ job) ∨
        (task = { job, phase } ∧ ∃ old ∈ daemon.compactions, old.job = job) := by
  rw [setPhase, List.mem_map]
  constructor
  · rintro ⟨old, mem, rfl⟩
    split
    · rename_i same
      obtain ⟨oldJob, oldPhase⟩ := old
      obtain rfl : oldJob = job := same
      exact .inr ⟨rfl, _, mem, rfl⟩
    · rename_i apart
      exact .inl ⟨mem, apart⟩
  · rintro (⟨mem, apart⟩ | ⟨rfl, old, mem, same⟩)
    · exact ⟨task, mem, if_neg apart⟩
    · obtain ⟨oldJob, oldPhase⟩ := old
      obtain rfl : oldJob = job := same
      exact ⟨_, mem, if_pos rfl⟩

theorem setPhase_mild {phase : CompactionPhase}
    (running : { job, phase := .running } ∈ daemon.compactions) :
    Mild daemon (daemon.setPhase job phase) where
  same := ⟨rfl, rfl, rfl, rfl, rfl⟩
  targets := prefix_rfl
  jobs := by
    intro jobs task mem
    rcases mem_setPhase.mp mem with ⟨old, _⟩ | ⟨rfl, old, oldMember, rfl⟩
    · exact jobs task old
    · exact jobs old oldMember
  distinct := fun _ distinct => setPhase_jobs daemon job phase ▸ distinct
  reported := by
    intro other _ reported finished hOther task mem same
    cases hOther
    rcases mem_setPhase.mp mem with ⟨old, _⟩ | ⟨rfl, _⟩
    · exact reported other rfl task old same
    · cases reported other rfl _ running same

theorem compactionFails_harmless {db : Database}
    (running : { job, phase := .running } ∈ daemon.compactions) (rows : JobRows daemon.db job)
    (fails : daemon.db.failCompactionAction job = some db) :
    Harmless daemon (({ daemon with db }).setPhase job .failed) := by
  rw [Database.failCompactionAction] at fails
  split at fails
  · cases fails
    have first : Mild daemon
      { daemon with db := daemon.db.failUnfinishedModelAction job.blockedModel } :=
        .modifyAction daemon job.blockedModel (ActionRow.finish_target .error)
    have second := Mild.modifyAction
      { daemon with db := daemon.db.failUnfinishedModelAction job.blockedModel } job.actionRow
      (ActionRow.finish_target .error)
    refine ⟨(first.trans second).trans (setPhase_mild running), ?_⟩
    intro runtime target _ _ covered
    by_cases owed : target = job.target
    · exact .inr ⟨{ job, phase := .failed }, mem_setPhase.mpr (.inr ⟨rfl, _, running, rfl⟩), rfl,
        owed.symm⟩
    · refine covered.imp ?_ ?_
      · intro covered
        have elsewhere := rows.blocked
        have own : ((daemon.db.actions.modify job.blockedModel (.finish .error)).map
            ActionRow.target)[job.actionRow]? = some none := by
          rw [map_target_modify _ _ (ActionRow.finish_target .error)]
          exact rows.own
        rw [Database.targets] at elsewhere
        have kept : Covered (daemon.db.actions.modify job.blockedModel (.finish .error)) target := by
          apply covered.modify
          intro action hAction isTarget
          rw [getElem?_map, hAction, map_some, isTarget] at elsewhere
          exact absurd (Option.some.inj (Option.some.inj elsewhere)) owed
        apply kept.modify
        intro action hAction isTarget
        rw [getElem?_map, hAction, map_some, isTarget] at own
        cases own
      · rintro ⟨task, mem, failed, rfl⟩
        exact ⟨task, mem_setPhase.mpr (.inl ⟨mem, fun same => owed (same ▸ rfl)⟩), failed, rfl⟩
  · cases fails

end

end Daemon

theorem Daemon.Holds.sound {daemon : Daemon} {owner : Owner} {point : Point}
    (holds : daemon.Holds owner) (settled : point.awaitsLoad → daemon.Settled)
    (keeps : ∀ dispatches, point ≠ .cancelWork dispatches) :
    DriverSection.Sound { owner, point } daemon where
  settled := settled
  rows := holds.rows
  reported := fun _ => holds.reported
  cancelled := fun dispatches _ hPoint => absurd hPoint (keeps dispatches)

theorem DriverSection.Sound.mild {before after : Daemon} {driver : DriverSection}
    (sound : driver.Sound before) (mild : Daemon.Mild before after) : driver.Sound after where
  settled := fun awaits => mild.same.settled (sound.settled awaits)
  rows := fun job hOwner => (sound.rows job hOwner).mono mild.targets
  reported := fun elsewhere => (sound.reported elsewhere).mild sound.rows mild
  cancelled := by
    rw [mild.same.active]
    exact sound.cancelled

end PiRelay.Runtime
