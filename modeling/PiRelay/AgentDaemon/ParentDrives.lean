import PiRelay.AgentDaemon.TrackedRuns

/-! How a parent is driven when its delegations complete. A barrier that won its claim queues
the wakeup observation without the parent's driver, and then drives the parent if the driver
is free. A drive that finds the queue empty goes on to hold the driver until it has told
everybody that the session is idle; it does not look at the queue again. -/
namespace PiRelay.Runtime

open AgentVocab AgentCore Session Store List Option
open Library (Machine)

/-- A barrier run that has won its claim. -/
inductive BarrierPoint where
  /-- The files are written, the observation is not queued. -/
  | publishing (observation : DaemonToolObservation)
  /-- The observation is queued, the parent's driver has not been tried. -/
  | driving

structure ParentState where
  daemon : Daemon := {}
  /-- The section in progress has found the queue empty and has yet to end. -/
  closing : Bool := false
  barriers : List BarrierPoint := []

inductive ParentLabel where
  /-- A barrier run wins its claim. -/
  | claim (observation : DaemonToolObservation)
  /-- `enqueue_delegation_observation`. -/
  | enqueue (index : Nat)
  /-- `drive_parent_after_wakeup`. -/
  | tryAcquire (index : Nat)
  | advance (choice : Choice)
  /-- The section that found the queue empty ends. -/
  | release
  | runnerReturns (row : RowId) (result : RunnerResult)
  | compactionFails (job : CompactionJob)
  | compactionReturns (job : CompactionJob)

namespace Daemon

/-- The loop takes its last look at the queue, and finds nothing to wait for. -/
def foundEmpty (daemon : Daemon) : Bool :=
  match daemon.driver with
  | some { owner := _, point := .take } =>
    !daemon.db.hasUnfinishedActions && !daemon.db.hasQueuedInputs
  | _ => false

/-- The runtime is dropped; the driver is kept. -/
def dropActive (daemon : Daemon) : Daemon := { daemon with active := none }

/-- A compaction has committed its failure and waits for the driver. -/
def isAwaited (daemon : Daemon) : Bool :=
  daemon.compactions.any fun task =>
    task.phase == .failed && daemon.driver.all (·.owner != .compaction task.job)

end Daemon

namespace ParentState

def tryDriver (daemon : Daemon) : Daemon := (daemon.acquire .request (.recover .drive)).getD daemon

variable (state : ParentState)

def withDaemon (daemon : Daemon) : ParentState := { state with daemon }

/-- One step of the section in progress, unless it is closing. -/
def advance (choice : Choice) : Option ParentState :=
  if state.closing then none
  else if state.daemon.foundEmpty then
    some { state with daemon := state.daemon.dropActive, closing := true }
  else (state.daemon.step (.advance choice)).map state.withDaemon

def step : ParentLabel → Option ParentState
  | .claim observation =>
    some { state with barriers := state.barriers ++ [.publishing observation] }
  | .enqueue index =>
    match state.barriers[index]? with
    | some (.publishing observation) =>
      let content := QueuedInputContent.daemonToolObservation observation
      some
        { state with
          daemon := { state.daemon with db := state.daemon.db.enqueueUserInput .steer content }
          barriers := state.barriers.set index .driving }
    | _ => none
  | .tryAcquire index =>
    match state.barriers[index]? with
    | some .driving =>
      some
        { state with
          daemon := tryDriver state.daemon
          barriers := state.barriers.eraseIdx index }
    | _ => none
  | .advance choice => state.advance choice
  | .release =>
    match state.closing, state.daemon.driver with
    | true, some driver =>
      some { state with daemon := state.daemon.finishSection driver.owner, closing := false }
    | _, _ => none
  | .runnerReturns row result =>
    (state.daemon.step (.runnerReturns row result)).map state.withDaemon
  | .compactionFails job =>
    -- a compaction that has no failure to commit ends without driving the session
    if state.daemon.db.isUnfinished job.actionRow then
      (state.daemon.step (.compactionFails job)).map state.withDaemon
    else none
  | .compactionReturns job => (state.daemon.step (.compactionReturns job)).map state.withDaemon

/-- Nothing is queued at first, and no barrier is under way. -/
structure Begins (state : ParentState) : Prop where
  noQueue : state.daemon.db.hasQueuedInputs = false
  notClosing : state.closing = false

/-- A drive ends idle or blocked. An end in an error is neither. -/
def endsBlocked : ParentLabel → Bool
  | .advance choice =>
    match state.daemon.step (.advance choice) with
    | some after =>
      state.daemon.foundEmpty || after.driver.isSome || after.db.hasUnfinishedActions
    | none => true
  | _ => true

/-- The runs of a parent without client requests, in which every drive ends idle or blocked. -/
def drives : Machine ParentState ParentLabel :=
  (Machine.ofSteps Begins step).guarded fun state label => state.endsBlocked label = true

/-- The wakeup is queued, nothing is unfinished, nobody holds or waits for the driver, and no
barrier is going to try it. -/
structure Lost (state : ParentState) : Prop where
  queued : state.daemon.db.hasQueuedInputs = true
  finished : state.daemon.db.hasUnfinishedActions = false
  free : state.daemon.driver = none
  noneWaits : state.daemon.isAwaited = false
  noBarrier : state.barriers = []

/-- The last barrier under way tries a driver whose holder has found the queue empty before
the wakeup was in it. -/
def strands : ParentLabel → Bool
  | .tryAcquire _ =>
    state.closing && state.daemon.db.hasQueuedInputs && state.barriers.length == 1
      && !state.daemon.isAwaited
  | _ => false

/-- The runs in which no barrier tries a driver that is as good as released. -/
def wokenDrives : Machine ParentState ParentLabel :=
  (Machine.ofSteps Begins step).guarded fun state label =>
    state.endsBlocked label = true ∧ state.strands label = false

end ParentState

namespace Daemon

variable {daemon : Daemon}

theorem acquire_eq_some {owner : Owner} {point : Point} {after : Daemon}
    (acquired : daemon.acquire owner point = some after) :
    daemon.driver = none ∧ after.driver.isSome := by
  rw [acquire] at acquired
  split at acquired
  · rename_i free
    cases acquired
    exact ⟨free, rfl⟩
  · cases acquired

end Daemon

namespace Daemon

variable {daemon after : Daemon}

theorem tryDriver_held (held : daemon.driver.isSome) : ParentState.tryDriver daemon = daemon := by
  obtain ⟨_, isDriver⟩ := isSome_iff_exists.mp held
  rw [ParentState.tryDriver, acquire, isDriver]
  rfl

theorem tryDriver_free (free : daemon.driver = none) :
    (ParentState.tryDriver daemon).driver.isSome := by
  rw [ParentState.tryDriver, acquire, free]
  rfl

theorem compactionFails_awaits {job : CompactionJob}
    (unfinished : daemon.db.isUnfinished job.actionRow) (free : daemon.driver = none)
    (stepped : daemon.step (.compactionFails job) = some after) : after.isAwaited := by
  rw [step] at stepped
  split at stepped
  · rename_i running
    rw [Database.failCompactionAction, if_pos unfinished] at stepped
    cases stepped
    rw [isAwaited, List.any_eq_true]
    refine ⟨{ job, phase := .failed }, ?_, ?_⟩
    · rw [setPhase]
      exact mem_map.mpr ⟨_, running, by simp⟩
    · simp [setPhase, free]
  · cases stepped

theorem compactionFails_driver {job : CompactionJob}
    (stepped : daemon.step (.compactionFails job) = some after) : after.driver = daemon.driver := by
  rw [step] at stepped
  split at stepped
  · split at stepped
    · cases stepped
      rfl
    · cases stepped
      rfl
  · cases stepped

theorem hasUnfinishedActions_of_isUnfinished {db : Database} {row : RowId}
    (unfinished : db.isUnfinished row) : db.hasUnfinishedActions := by
  rw [Database.isUnfinished] at unfinished
  split at unfinished
  · cases unfinished
  · rename_i action isAction
    exact List.any_eq_true.mpr ⟨action, mem_of_getElem? isAction, unfinished⟩

theorem isAwaited_finishSection {driver : DriverSection} (isDriver : daemon.driver = some driver)
    (awaited : daemon.isAwaited) : (daemon.finishSection driver.owner).isAwaited := by
  rw [isAwaited, List.any_eq_true] at awaited ⊢
  obtain ⟨task, isTask, waits⟩ := awaited
  rw [isDriver, Bool.and_eq_true] at waits
  have apart : driver.owner ≠ .compaction task.job := by simpa using waits.2
  refine ⟨task, ?_, ?_⟩
  · cases owner : driver.owner with
    | request | runner => exact isTask
    | compaction job =>
      rw [owner] at apart
      have other : task.job ≠ job := fun same => apart (by rw [same])
      simpa [finishSection, other] using isTask
  · rw [finishSection_driver]
    simpa using waits.1

theorem not_isAwaited_finishSection {driver : DriverSection} (isDriver : daemon.driver = some driver)
    (noneWaits : daemon.isAwaited = false) :
    (daemon.finishSection driver.owner).isAwaited = false := by
  rw [isAwaited, List.any_eq_false] at noneWaits ⊢
  intro task isTask waits
  have failed : task.phase = .failed := by simpa using waits
  have own : driver.owner = .compaction task.job ∨ task ∉ daemon.compactions := by
    by_cases mem : task ∈ daemon.compactions
    · left
      have waiting := noneWaits task mem
      simpa [isDriver, failed] using waiting
    · exact Or.inr mem
  cases owner : driver.owner with
  | request | runner =>
    rw [owner] at own isTask
    obtain same | absent := own
    · cases same
    · exact absent isTask
  | compaction job =>
    rw [owner] at own isTask
    have kept : task ∈ daemon.compactions ∧ task.job ≠ job := by
      simpa [finishSection] using isTask
    obtain same | absent := own
    · exact kept.2 (Owner.compaction.inj same).symm
    · exact absent kept.1

end Daemon

namespace ParentState

/-- Who is going to look at the queue again. -/
inductive Watched (state : ParentState) : Prop where
  | drive (held : state.daemon.driver.isSome = true) (going : state.closing = false)
  | barrier (under : state.barriers ≠ [])
  | compaction (awaited : state.daemon.isAwaited = true)

/-- A queued input is looked at again, as long as nothing is unfinished. -/
structure Woken (state : ParentState) : Prop where
  closes : state.closing = true →
    state.daemon.driver.isSome = true ∧ state.daemon.db.hasUnfinishedActions = false
  watched : state.daemon.db.hasQueuedInputs = true →
    state.daemon.db.hasUnfinishedActions = false → state.Watched

variable {state after : ParentState}

theorem Woken.start (begins : state.Begins) : state.Woken where
  closes closing := by
    rw [begins.notClosing] at closing
    cases closing
  watched queued := by
    rw [begins.noQueue] at queued
    cases queued

theorem Woken.not_lost (woken : state.Woken) : ¬ state.Lost := by
  intro lost
  cases woken.watched lost.queued lost.finished with
  | drive held =>
    rw [lost.free] at held
    cases held
  | barrier under => exact under lost.noBarrier
  | compaction awaited =>
    rw [lost.noneWaits] at awaited
    cases awaited

theorem Woken.of_held {daemon : Daemon} (notClosing : state.closing = false)
    (held : daemon.driver.isSome) : (state.withDaemon daemon).Woken where
  closes closing := by
    have closing : state.closing := closing
    rw [notClosing] at closing
    cases closing
  watched _ _ := .drive held notClosing

theorem Woken.notClosing_of_free (woken : state.Woken) (free : state.daemon.driver = none) :
    state.closing = false := by
  cases closing : state.closing with
  | false => rfl
  | true =>
    obtain ⟨held, -⟩ := woken.closes closing
    rw [free] at held
    cases held

theorem Woken.enqueue (woken : state.Woken) {index : Nat} {observation : DaemonToolObservation}
    (isPublishing : state.barriers[index]? = some (.publishing observation))
    (content : QueuedInputContent) :
    Woken { state with
      daemon := { state.daemon with db := state.daemon.db.enqueueUserInput .steer content }
      barriers := state.barriers.set index .driving } where
  closes closing := by
    exact woken.closes closing
  watched _ _ := by
    apply Watched.barrier
    intro none
    have empty : state.barriers = [] := by simpa using none
    rw [empty] at isPublishing
    cases isPublishing

theorem Woken.tryAcquire (woken : state.Woken) {index : Nat}
    (isDriving : state.barriers[index]? = some .driving)
    (notStranded : state.strands (.tryAcquire index) = false) :
    Woken { state with
      daemon := tryDriver state.daemon
      barriers := state.barriers.eraseIdx index } := by
  cases held : state.daemon.driver with
  | none =>
    have notClosing := woken.notClosing_of_free held
    constructor
    · intro closing
      rw [notClosing] at closing
      cases closing
    · intro _ _
      exact .drive (Daemon.tryDriver_free held) notClosing
  | some driver =>
    have isHeld : state.daemon.driver.isSome := by rw [held]; rfl
    rw [Daemon.tryDriver_held isHeld]
    constructor
    · exact woken.closes
    · intro queued finished
      by_cases closing : state.closing
      · by_cases awaited : state.daemon.isAwaited
        · exact .compaction awaited
        · -- another barrier is under way, or this one would strand the wakeup
          have others : state.barriers.length ≠ 1 := by
            intro last
            simp [strands, closing, queued, last, awaited] at notStranded
          have bound : index < state.barriers.length := (List.getElem?_eq_some_iff.mp isDriving).1
          have length := length_eraseIdx_of_lt bound
          apply Watched.barrier
          show state.barriers.eraseIdx index ≠ []
          intro none
          rw [none, length_nil] at length
          omega
      · exact .drive isHeld (by simpa using closing)

theorem Woken.advance {choice : Choice} (endsBlocked : state.endsBlocked (.advance choice))
    (stepped : state.advance choice = some after) : after.Woken := by
  rw [ParentState.advance] at stepped
  split at stepped
  · cases stepped
  · rename_i going
    have notClosing : state.closing = false := by simpa using going
    split at stepped
    · rename_i found
      cases stepped
      rw [Daemon.foundEmpty] at found
      split at found
      · rename_i owner isDriver
        rw [Bool.and_eq_true, Bool.not_eq_true', Bool.not_eq_true'] at found
        constructor
        · intro _
          constructor
          · show state.daemon.driver.isSome
            rw [isDriver]
            rfl
          · exact found.1
        · intro queued
          have queued : state.daemon.db.hasQueuedInputs := queued
          rw [found.2] at queued
          cases queued
      · cases found
    · rename_i notFound
      obtain ⟨daemon, advanced, rfl⟩ := map_eq_some_iff.mp stepped
      have ends : daemon.driver.isSome ∨ daemon.db.hasUnfinishedActions := by
        simpa [ParentState.endsBlocked, advanced, notFound] using endsBlocked
      constructor
      · intro closing
        exact absurd closing going
      · intro _ finished
        obtain held | unfinished := ends
        · exact .drive held notClosing
        · have finished : daemon.db.hasUnfinishedActions = false := finished
          rw [unfinished] at finished
          cases finished

theorem Woken.release (woken : state.Woken) {driver : DriverSection}
    (closing : state.closing) (isDriver : state.daemon.driver = some driver) :
    Woken { state with daemon := state.daemon.finishSection driver.owner, closing := false } where
  closes reopened := by cases reopened
  watched queued finished := by
    rw [Daemon.finishSection_db] at queued finished
    cases woken.watched queued finished with
    | drive _ going =>
      rw [closing] at going
      cases going
    | barrier under => exact .barrier under
    | compaction awaited => exact .compaction (Daemon.isAwaited_finishSection isDriver awaited)

theorem Woken.compactionFails (woken : state.Woken) {job : CompactionJob} {daemon : Daemon}
    (unfinished : state.daemon.db.isUnfinished job.actionRow)
    (stepped : state.daemon.step (.compactionFails job) = some daemon) :
    (state.withDaemon daemon).Woken := by
  have notClosing : state.closing = false := by
    cases closing : state.closing with
    | false => rfl
    | true =>
      have finished := (woken.closes closing).2
      rw [Daemon.hasUnfinishedActions_of_isUnfinished unfinished] at finished
      cases finished
  cases held : state.daemon.driver with
  | none =>
    constructor
    · intro closing
      have closing : state.closing := closing
      rw [notClosing] at closing
      cases closing
    · intro _ _
      exact .compaction (Daemon.compactionFails_awaits unfinished held stepped)
  | some =>
    apply Woken.of_held notClosing
    rw [Daemon.compactionFails_driver stepped, held]
    rfl

/-- A step that strands nothing keeps the parent woken. -/
theorem Woken.step {label : ParentLabel} (woken : state.Woken)
    (endsBlocked : state.endsBlocked label) (notStranded : state.strands label = false)
    (stepped : state.step label = some after) : after.Woken := by
  cases label with
  | claim =>
    cases stepped
    constructor
    · exact woken.closes
    · intro _ _
      exact .barrier (by simp)
  | enqueue =>
    rw [ParentState.step] at stepped
    split at stepped
    · rename_i observation isPublishing
      cases stepped
      exact woken.enqueue isPublishing _
    · cases stepped
  | tryAcquire =>
    rw [ParentState.step] at stepped
    split at stepped
    · rename_i isDriving
      cases stepped
      exact woken.tryAcquire isDriving notStranded
    · cases stepped
  | advance => exact Woken.advance endsBlocked stepped
  | release =>
    rw [ParentState.step] at stepped
    split at stepped
    · rename_i driver closing isDriver
      cases stepped
      exact woken.release closing isDriver
    · cases stepped
  | runnerReturns | compactionReturns =>
    obtain ⟨daemon, returned, rfl⟩ := map_eq_some_iff.mp stepped
    rw [Daemon.step] at returned
    split at returned
    · obtain ⟨free, held⟩ := Daemon.acquire_eq_some returned
      exact .of_held (woken.notClosing_of_free free) held
    · cases returned
  | compactionFails =>
    rw [ParentState.step] at stepped
    split at stepped
    · rename_i unfinished
      obtain ⟨daemon, failed, rfl⟩ := map_eq_some_iff.mp stepped
      exact woken.compactionFails unfinished failed
    · cases stepped

theorem wokenDrives_woken (reaches : wokenDrives.Reaches state) : state.Woken := by
  apply reaches.invariant
  · intro state begins
    exact Woken.start begins
  · rintro state label after - woken ⟨⟨endsBlocked, notStranded⟩, stepped⟩
    exact woken.step endsBlocked notStranded stepped

/-- After a step that strands an input, the wakeup can be lost. -/
theorem Woken.strands_lost {label : ParentLabel} (woken : state.Woken)
    (stranded : state.strands label) (stepped : state.step label = some after) :
    ∃ final, after.step .release = some final ∧ final.Lost := by
  cases label with
  | tryAcquire index =>
    simp only [strands, Bool.and_eq_true, beq_iff_eq, Bool.not_eq_true'] at stranded
    obtain ⟨⟨⟨closing, queued⟩, last⟩, noneWaits⟩ := stranded
    obtain ⟨held, finished⟩ := woken.closes closing
    obtain ⟨driver, isDriver⟩ := isSome_iff_exists.mp held
    obtain ⟨_, only⟩ := length_eq_one_iff.mp last
    rw [ParentState.step] at stepped
    split at stepped
    · rename_i isDriving
      cases stepped
      have first : index = 0 := by
        have bound := (List.getElem?_eq_some_iff.mp isDriving).1
        omega
      rw [Daemon.tryDriver_held held]
      refine ⟨{ daemon := state.daemon.finishSection driver.owner, closing := false, barriers := [] },
        ?_, ?_⟩
      · simp [ParentState.step, closing, isDriver, only, first]
      · constructor
        · simpa using queued
        · simpa using finished
        · exact Daemon.finishSection_driver _ _
        · exact Daemon.not_isAwaited_finishSection isDriver noneWaits
        · rfl
    · cases stepped
  | _ => cases stranded

/-- In a run in which no barrier tries a driver that is as good as released, no wakeup is lost;
the first such try loses it. -/
theorem wakeup_not_lost {state : ParentState} (reaches : wokenDrives.Reaches state) :
    ¬ state.Lost ∧
      ∀ label after, state.strands label = true → state.step label = some after →
        ∃ final, after.step .release = some final ∧ final.Lost := by
  have woken := wokenDrives_woken reaches
  constructor
  · exact woken.not_lost
  · intro label after stranded stepped
    exact woken.strands_lost stranded stepped

instance (state : ParentState) : Decidable state.Lost :=
  decidable_of_iff
    (state.daemon.db.hasQueuedInputs = true ∧ state.daemon.db.hasUnfinishedActions = false ∧
      state.daemon.driver = none ∧ state.daemon.isAwaited = false ∧ state.barriers = [])
    ⟨fun ⟨queued, finished, free, noneWaits, noBarrier⟩ =>
        ⟨queued, finished, free, noneWaits, noBarrier⟩,
      fun lost => ⟨lost.queued, lost.finished, lost.free, lost.noneWaits, lost.noBarrier⟩⟩

def sampleObservation (toolCallId : ToolCallId) : DaemonToolObservation where
  toolCallId := toolCallId
  toolName := "inspect_delegation"
  argsJson := "\x7b\x7d"
  resultJson := "\x7b\x7d"
  status := .success
  summary := none

/-- An advance that draws its ids from two lanes of its own. -/
def sampleAdvance (lane : Nat) (queued : Option RowId) (outcomes : List DispatchOutcome) :
    ParentLabel :=
  .advance { early := supply (2 * lane), stamps := supply (2 * lane + 1), queued, outcomes }

/-- The first wakeup is answered, and the drive that ends the turn finds the queue empty. The
second wakeup is queued while that drive still holds the driver. -/
def overlapScript : List ParentLabel :=
  [.claim (sampleObservation "call_1"), .enqueue 0, .tryAcquire 0] ++
    List.replicate 5 (sampleAdvance 1 none []) ++
    [sampleAdvance 1 (some 0) [], sampleAdvance 2 none [.claimed],
      .runnerReturns 0 (.modelResponse { items := [.text "done"] } [] .complete)] ++
    List.replicate 7 (sampleAdvance 3 none []) ++
    [.claim (sampleObservation "call_2"), .enqueue 0]

def runChecked (check : ParentState → ParentLabel → Bool) (script : List ParentLabel) :
    Option ParentState :=
  script.foldlM (fun state label => if check state label then state.step label else none) {}

theorem begins_empty : ({} : ParentState).Begins := ⟨rfl, rfl⟩

theorem wakeup_not_lost_overlapping :
    ∃ state, wokenDrives.Reaches state ∧ state.closing = true ∧
      state.daemon.db.hasQueuedInputs = true ∧ ¬ state.Lost := by
  have runs : (runChecked (fun state label => state.endsBlocked label && !state.strands label)
      overlapScript).map (fun state => (state.closing, state.daemon.db.hasQueuedInputs)) =
        some (true, true) := by
    decide +kernel
  obtain ⟨state, hRun, facts⟩ := map_eq_some_iff.mp runs
  obtain ⟨closing, queued⟩ := Prod.mk.inj facts
  have reaches : wokenDrives.Reaches state :=
    Machine.Reaches.checkedRun (fun state label checked => by simpa using checked)
      (.start begins_empty) hRun
  exact ⟨state, reaches, closing, queued, (wakeup_not_lost reaches).1⟩

/-- The barrier finds the driver held and gives up, and the holder goes. -/
theorem overlapped_wakeup_lost : ∃ state, drives.Reaches state ∧ state.Lost := by
  have runs : (runChecked endsBlocked (overlapScript ++ [.tryAcquire 0, .release])).map
      (fun state => decide state.Lost) = some true := by
    decide +kernel
  obtain ⟨state, hRun, lost⟩ := map_eq_some_iff.mp runs
  have reaches : drives.Reaches state :=
    Machine.Reaches.checkedRun (fun _ _ checked => checked) (.start begins_empty) hRun
  exact ⟨state, reaches, of_decide_eq_true lost⟩

end ParentState

end PiRelay.Runtime
