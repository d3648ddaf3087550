import PiRelay.AgentDaemon.TrackedSections

/-! Runs in which no failed step ends an action that the kept session still waits
for. In all of them an open turn has an unfinished action, a task that is going to
report, or no runtime at all; one that marks such an action stale leaves a session
that never goes on. -/
namespace PiRelay.Runtime

open AgentVocab AgentCore Session Store List Option
open Library (Machine)

namespace Daemon

/-- The step ends no action behind the back of the kept session: a failed runner
and a failed gate end only actions it does not wait for, results come back whole,
and an interrupt finds no input that waits for the next turn. In strict runs no
input is taken while a compaction still has its failure to report. -/
def keepsTrack (strict : Bool) (daemon : Daemon) : Label → Bool
  | .markActionStale row marks => !(marks && daemon.tracks row)
  | .advance choice =>
    match daemon.driver with
    | some { owner := .runner row, point := .complete result } => daemon.wholeResult row result
    | some { owner := .compaction _, point := .dispatch _ _ } => true
    | some { owner := _, point := .dispatch dispatches _ } =>
      daemon.gatesPass (dispatches.zip choice.outcomes)
    | some { owner := _, point := .interrupt } =>
      strict || daemon.active.all fun runtime => runtime.session.core.mailbox == {}
    | some { owner := _, point := .take } =>
      !strict || daemon.erring.isEmpty && daemon.compactions.all (·.phase != .failed)
    | _ => true
  | _ => true

variable {strict : Bool} {daemon after : Daemon} {label : Label}

section

variable (tracked : daemon.Tracked strict)
include tracked

theorem Tracked.holds {driver : DriverSection} (hDriver : daemon.driver = some driver)
    (elsewhere : driver.point ≠ .compactionFailure) : daemon.Holds driver.owner :=
  ⟨(tracked.driving driver hDriver).rows, (tracked.driving driver hDriver).reported elsewhere⟩

/-- The section in progress keeps track of what it dispatched. -/
theorem Tracked.advance {driver : DriverSection} {choice : Choice}
    (hDriver : daemon.driver = some driver) (fresh : choice.Fresh daemon.db)
    (survives : choice.commit ≠ .panicked) (reads : choice.steerRead)
    (keeps : daemon.keepsTrack strict (.advance choice))
    (advances : daemon.advance driver choice = some after) : after.Tracked strict := by
  have kept := tracked.toKept
  have sound := tracked.driving driver hDriver
  have holds := tracked.holds hDriver
  rw [keepsTrack, hDriver] at keeps
  obtain ⟨owner, current⟩ := driver
  cases current with
  | recover next =>
    cases advances
    exact kept.advanceRecover (holds (by simp)) fresh next
  | driveIfQueued =>
    cases advances
    exact kept.advanceDriveIfQueued (holds (by simp)) (sound.settled rfl)
  | interrupt =>
    cases advances
    apply kept.advanceInterrupt (holds (by simp)) (sound.settled rfl) fresh survives
    intro runtime hActive
    cases strict with
    | true => exact (kept.live runtime hActive).empty rfl
    | false => simpa [hActive] using keeps
  | cancelWork dispatches =>
    cases advances
    exact kept.advanceCancelWork (holds (by simp)) (sound.settled rfl)
      (fun runtime => sound.cancelled dispatches runtime rfl) dispatches
  | complete =>
    cases owner with
    | runner => exact kept.advanceComplete (holds (by simp)) fresh survives reads keeps advances
    | request | compaction => cases advances
  | compactionFailure =>
    cases owner with
    | compaction job =>
      cases advances
      exact kept.advanceCompactionFailure (sound.rows job rfl) fresh survives
    | request | runner => cases advances
  | dispatch =>
    cases advances
    apply kept.advanceDispatch (holds (by simp))
    · rintro rfl
      exact sound.settled rfl
    · cases owner with
      | compaction job => exact .inl ⟨job, rfl⟩
      | request | runner => exact .inr keeps
  | load =>
    cases advances
    exact kept.advanceLoad (holds (by simp)) (sound.settled rfl)
  | top =>
    cases advances
    exact kept.advanceTop (holds (by simp))
  | persist =>
    cases advances
    exact kept.advancePersist (holds (by simp)) fresh survives
  | ready next =>
    cases advances
    exact kept.advanceReady (holds (by simp)) next
  | take =>
    apply kept.advanceTake (holds (by simp)) fresh survives _ advances
    rintro rfl
    simpa using keeps

theorem Tracked.harmless (harmless : Harmless daemon after) (hDriver : after.driver = daemon.driver) :
    after.Tracked strict where
  toKept := tracked.toKept.harmless harmless
  driving := by
    rw [hDriver]
    intro driver hDriver
    exact (tracked.driving driver hDriver).mild harmless.toMild

theorem Tracked.queue {queuedInputs : List QueuedInput}
    (consumed : ∀ queued ∈ queuedInputs, queued.status = .consumed → queued ∈ daemon.db.queuedInputs) :
    ({ daemon with db := { daemon.db with queuedInputs } } : Daemon).Tracked strict where
  nodup := tracked.nodup
  shown := fun isStrict queued mem isConsumed =>
    tracked.shown isStrict queued (consumed queued mem isConsumed) isConsumed
  jobs := fun task mem => ⟨(tracked.jobs task mem).blocked, (tracked.jobs task mem).own⟩
  distinct := tracked.distinct
  live := by
    intro runtime hActive
    have live := tracked.live runtime hActive
    exact ⟨live.synced.of_rows rfl rfl, live.atRest, live.covers, live.empty⟩
  driving := by
    intro driver hDriver
    have sound := tracked.driving driver hDriver
    exact ⟨sound.settled, fun job hOwner => ⟨(sound.rows job hOwner).blocked,
      (sound.rows job hOwner).own⟩, sound.reported, sound.cancelled⟩

theorem Tracked.released (hDb : after.db = daemon.db) (hActive : after.active = none)
    (hDriver : after.driver = none) (hTasks : after.compactions = daemon.compactions) :
    after.Tracked strict where
  toKept := tracked.toRowsKept.drop hDb hActive (hTasks ▸ List.Sublist.refl _)
  driving := by simp [hDriver]

end

theorem runningEnds_harmless {job : CompactionJob}
    (distinct : (daemon.compactions.map (·.job)).Nodup)
    (running : { job, phase := .running } ∈ daemon.compactions) :
    Harmless daemon
      { daemon with compactions := daemon.compactions.filter (·.job != job) } where
  toMild := .of_tasks rfl rfl rfl filter_sublist
  covered := by
    intro runtime target _ _ covered
    refine covered.imp_right ?_
    rintro ⟨task, mem, failed, hTarget⟩
    refine ⟨task, mem_filter.mpr ⟨mem, ?_⟩, failed, hTarget⟩
    rw [bne_iff_ne]
    intro same
    have only := inj_on_of_nodup_map distinct mem running same
    rw [only] at failed
    cases failed

theorem Tracked.errs (tracked : daemon.Tracked strict) {job : CompactionJob} :
    ({ daemon with
      compactions := daemon.compactions.filter (·.job != job)
      erring := daemon.erring ++ [job] } : Daemon).Tracked strict where
  toRowsKept := tracked.toRowsKept.of_tasks rfl filter_sublist
  live := by
    intro runtime hActive
    have live := tracked.live runtime hActive
    exact ⟨live.synced, live.atRest, fun noErring => by simp at noErring, live.empty⟩
  driving := by
    intro driver hDriver
    have sound := tracked.driving driver hDriver
    refine ⟨sound.settled, sound.rows, ?_, sound.cancelled⟩
    intro elsewhere other hOther task mem same
    exact sound.reported elsewhere other hOther task (mem_filter.mp mem).1 same

/-- A step that keeps track leaves no action untracked. -/
theorem Tracked.step (tracked : daemon.Tracked strict) (uncut : daemon.Uncut label)
    (keeps : daemon.keepsTrack strict label) (steps : daemon.step label = some after) :
    after.Tracked strict := by
  cases label with
  | advance =>
    obtain ⟨fresh, survives, reads⟩ := uncut
    rw [Daemon.step] at steps
    split at steps
    · cases steps
    · rename_i driver hDriver
      exact tracked.advance hDriver fresh survives reads keeps steps
  | enqueueInput =>
    cases steps
    apply tracked.queue
    intro queued mem isConsumed
    rcases Library.mem_concat.mp mem with old | rfl
    · exact old
    · cases isConsumed
  | cancelInput =>
    cases steps
    rw [Database.cancelQueuedInput]
    split
    · apply tracked.queue
      intro queued mem isConsumed
      obtain ⟨position, hPosition⟩ := mem_iff_getElem?.mp mem
      rw [getElem?_modify, Option.map_eq_map, map_eq_some_iff] at hPosition
      obtain ⟨old, hOld, hQueued⟩ := hPosition
      split at hQueued
      · rw [← hQueued] at isConsumed
        cases isConsumed
      · obtain rfl : old = queued := hQueued
        exact mem_iff_getElem?.mpr ⟨position, hOld⟩
    · exact tracked
  | request =>
    obtain rfl := acquire_some steps
    exact tracked.toKept.setPoint ⟨by simp [Point.awaitsLoad], by simp, by simp [Reported], by simp⟩
  | sectionFails =>
    rw [Daemon.step] at steps
    split at steps
    · cases steps
    · cases steps
      exact tracked.toKept.failSection
  | runnerReturns =>
    rw [Daemon.step] at steps
    split at steps
    · obtain rfl := acquire_some steps
      exact tracked.toKept.setPoint
        ⟨by simp [Point.awaitsLoad], by simp, by simp [Reported], by simp⟩
    · cases steps
  | runnerFails =>
    rw [Daemon.step] at steps
    split at steps
    · cases steps
      exact tracked.harmless (.of_tasks rfl rfl rfl rfl) rfl
    · cases steps
  | markActionStale row marks =>
    rw [Daemon.step] at steps
    split at steps
    · cases steps
      cases marks with
      | false => exact tracked.harmless (.of_tasks rfl rfl rfl rfl) rfl
      | true =>
        have untracked : daemon.tracks row = false := by simpa [keepsTrack] using keeps
        have ended : Harmless daemon { daemon with db := daemon.db.markActionStale row } :=
          .finish .stale untracked
        exact tracked.harmless (ended.trans (.of_tasks rfl rfl rfl rfl)) rfl
    · cases steps
  | compactionFails =>
    rw [Daemon.step] at steps
    split at steps
    · rename_i running
      split at steps
      · cases steps
        exact tracked.harmless (runningEnds_harmless tracked.distinct running) rfl
      · rename_i db hFails
        cases steps
        exact tracked.harmless
          (compactionFails_harmless running (tracked.jobs _ running) hFails) rfl
    · cases steps
  | compactionReturns =>
    rw [Daemon.step] at steps
    split at steps
    · rename_i failed
      obtain rfl := acquire_some steps
      refine tracked.toKept.setPoint ⟨by simp [Point.awaitsLoad], ?_, by simp, by simp⟩
      intro other hOther
      cases hOther
      exact tracked.jobs _ failed
    · cases steps
  | compactionErrs =>
    rw [Daemon.step] at steps
    split at steps
    · cases steps
      exact tracked.errs
    · cases steps
  | compactionDropsRuntime =>
    rw [Daemon.step] at steps
    split at steps
    · cases steps
      exact tracked.released rfl rfl uncut rfl
    · cases steps
  | dropRuntime =>
    rw [Daemon.step] at steps
    split at steps
    · rename_i free
      cases steps
      exact tracked.released rfl rfl free rfl
    · cases steps
  | restart =>
    cases steps
    exact
      { nodup := tracked.nodup
        shown := tracked.shown
        jobs := by simp
        distinct := nodup_nil
        live := by simp
        driving := by simp }

def trackedRuns (strict : Bool) : Machine Daemon Label :=
  machine.guarded fun daemon label => daemon.Uncut label ∧ daemon.keepsTrack strict label = true

theorem trackedRuns_tracked (reaches : (trackedRuns strict).Reaches daemon) :
    daemon.Tracked strict := by
  apply reaches.invariant
  · rintro daemon rfl
    exact
      { nodup := nodup_nil
        shown := fun _ queued absurd => by cases absurd
        jobs := by simp
        distinct := nodup_nil
        live := by simp
        driving := by simp }
  · rintro daemon label after _ tracked ⟨⟨uncut, keeps⟩, steps⟩
    exact tracked.step uncut keeps steps

/-- Once no action of the session is unfinished and no compaction task is left, the
stored leaf is a turn boundary or no runtime is kept, and no kept core waits for
a completion. This holds whether or not the driver is held. -/
theorem open_turn_not_stranded (reaches : (trackedRuns false).Reaches daemon)
    (noCompaction : daemon.compactions = []) (noErring : daemon.erring = [])
    (finished : daemon.db.hasUnfinishedActions = false) :
    (daemon.db.activeLeafIsTurnBoundary = true ∨ daemon.active = none) ∧
      ∀ runtime, daemon.active = some runtime → runtime.session.core.state.waitsFor = [] := by
  have tracked := trackedRuns_tracked reaches
  have rested : ∀ runtime, daemon.active = some runtime →
      runtime.session.core.state = .idle ∧ daemon.db.activeLeafIsTurnBoundary := by
    intro runtime hActive
    have live := tracked.live runtime hActive
    obtain ⟨idle, boundary⟩ := live.atRest.idle
      (live.pending_nil finished noErring (by simp [noCompaction]))
    exact ⟨idle, live.synced.isTurnBoundary.trans boundary⟩
  constructor
  · cases hActive : daemon.active with
    | none => exact .inr rfl
    | some runtime => exact .inl (rested runtime hActive).2
  · intro runtime hActive
    rw [(rested runtime hActive).1]
    rfl

def trackedCheck (strict : Bool) (daemon : Daemon) (entry : ScriptEntry) : Bool :=
  entry.uncut daemon && daemon.keepsTrack strict entry.label

theorem trackedCheck_sound (strict : Bool) (daemon : Daemon) (entry : ScriptEntry)
    (checked : trackedCheck strict daemon entry) :
    daemon.Uncut entry.label ∧ daemon.keepsTrack strict entry.label := by
  obtain ⟨uncut, keeps⟩ := (Bool.and_eq_true _ _).mp checked
  exact ⟨ScriptEntry.uncut_sound uncut, keeps⟩

/-- The model answers the prompt, and the section of its runner fails right after
the transaction. -/
def answeredScript : List ScriptEntry :=
  promptScript ++
    [.act (.runnerReturns 0 (.modelResponse { items := [.text "done"] } [] .complete)),
      .go 2 none [], .act .sectionFails, .act (.markActionStale 0 true)]

/-- What is left of the session: the parts the result is about. -/
def outcome (daemon : Daemon) : List CompactionTask × List CompactionJob × Bool × Bool × Bool :=
  (daemon.compactions, daemon.erring, daemon.db.hasUnfinishedActions,
    daemon.db.activeLeafIsTurnBoundary, daemon.active.isSome)

/-- The answered turn leaves an idle runtime at a boundary, although its runner
failed and marked its action. -/
theorem open_turn_not_stranded_answered :
    ∃ daemon, (trackedRuns false).Reaches daemon ∧ daemon.active.isSome = true ∧
      (daemon.db.activeLeafIsTurnBoundary = true ∨ daemon.active = none) := by
  have runs : (answeredScript.foldlM
      (fun daemon entry =>
        if trackedCheck false daemon entry then daemon.step entry.label else none)
      ({} : Daemon)).map outcome = some ([], [], false, true, true) := by
    decide +kernel
  obtain ⟨daemon, hRun, facts⟩ := map_eq_some_iff.mp runs
  simp only [outcome, Prod.mk.injEq] at facts
  obtain ⟨noCompaction, noErring, finished, _, kept⟩ := facts
  have reaches : (trackedRuns false).Reaches daemon :=
    Machine.Reaches.checkedRun (trackedCheck_sound false) (.start rfl) hRun
  exact ⟨daemon, reaches, kept, (open_turn_not_stranded reaches noCompaction noErring finished).1⟩

def strandedScript : List ScriptEntry :=
  promptScript ++ [.act (.runnerFails 0), .act (.markActionStale 0 true)]

/-- After a runner's error nothing is left that could report to the kept session:
the driver is free, no task runs, no action is unfinished, and the core still
waits for the model within an open turn. -/
theorem failed_runner_strands_turn :
    ∃ daemon, machine.Reaches daemon ∧ daemon.driver = none ∧ daemon.runners = [] ∧
      daemon.failing = [] ∧ daemon.compactions = [] ∧ daemon.erring = [] ∧
      daemon.db.hasUnfinishedActions = false ∧ daemon.db.activeLeafIsTurnBoundary = false ∧
      daemon.active.map (·.session.core.state) = some (.runningModel 1 1) := by
  have runs : ((strandedScript.map ScriptEntry.label).foldlM step {}).map
      (fun daemon => daemon.driver.isNone && daemon.runners.isEmpty && daemon.failing.isEmpty &&
        daemon.compactions.isEmpty && daemon.erring.isEmpty && !daemon.db.hasUnfinishedActions &&
        !daemon.db.activeLeafIsTurnBoundary &&
        daemon.active.map (·.session.core.state) == some (.runningModel 1 1)) = some true := by
    decide +kernel
  obtain ⟨daemon, hRun, facts⟩ := map_eq_some_iff.mp runs
  simp only [Bool.and_eq_true, isNone_iff_eq_none, List.isEmpty_iff, Bool.not_eq_true',
    beq_iff_eq] at facts
  obtain ⟨⟨⟨⟨⟨⟨⟨noDriver, noRunner⟩, noneFailing⟩, noCompaction⟩, noErring⟩, finished⟩, isOpen⟩,
    waiting⟩ := facts
  exact ⟨daemon, Machine.Reaches.run (.start rfl) hRun, noDriver, noRunner, noneFailing,
    noCompaction, noErring, finished, isOpen, waiting⟩

end Daemon

end PiRelay.Runtime
