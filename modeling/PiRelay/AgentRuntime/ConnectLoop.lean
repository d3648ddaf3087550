import PiRelay.Library.Channel
import PiRelay.Library.Machine

/-! The loop of a runtime's connection. Command tasks and the forwarders of their progress
fill a queue of results that only the loop drains. The loop also handles cancellations, and
what it then answers goes through the same queue, where it waits for its turn like any
other sender. -/
namespace PiRelay.AgentRuntime

open List Option
open Library (Channel Machine)

structure RuntimeCommandError where
  code : String
  message : String

variable {Value Progress Delta : Type}

inductive RuntimeToControl (Value Progress Delta : Type) where
  | heartbeat
  | progress (commandId : String) (progress : Progress)
  | result (commandId : String) (result : Except RuntimeCommandError Value)
  | browseFsChanged (workspaceId : String) (delta : Delta)

/-- The capacity of the queue of results, and of the progress of a command. -/
def queueCapacity : Nat := 32

/-- Where the task of a command is: it executes, it waits for its forwarder, for the lock of
the running commands, and for room for its result. -/
inductive TaskPhase (Value : Type) where
  | executing
  | flushing (result : Except RuntimeCommandError Value)
  | unregistering (result : Except RuntimeCommandError Value)
  | sending (result : Except RuntimeCommandError Value)
  | done
  | dropped

def TaskPhase.isEnded : TaskPhase Value → Bool
  | .done | .dropped => true
  | _ => false

/-- The progress channel of a command, and the progress its forwarder has taken from it. -/
structure ProgressForward (Progress : Type) where
  queue : List Progress := []
  holding : Option Progress := none

structure CommandTask (Value Progress : Type) where
  commandId : String
  phase : TaskPhase Value := .executing
  aborted : Bool := false
  /-- Its senders are connected as long as the connection it came with is there. -/
  connected : Bool := true
  forward : Option (ProgressForward Progress) := none

/-- The forwarder has sent what the command reported. -/
def CommandTask.isFlushed (task : CommandTask Value Progress) : Bool :=
  match task.forward with
  | none => true
  | some forward => forward.queue.isEmpty && forward.holding.isNone

/-- The loop selects, or it waits for room for the answer of a cancellation. It then keeps
the lock of the running commands. -/
inductive LoopPoint where
  | selecting
  | sendingCancelled (commandId : String)
deriving DecidableEq

/-- Who sends to the queue of results. -/
inductive Sender where
  | loop
  | forwarder (task : Nat)
  | task (index : Nat)
deriving DecidableEq

structure Connection (Value Progress Delta : Type) where
  loop : LoopPoint := .selecting
  results : Channel Sender (RuntimeToControl Value Progress Delta) := {}
  /-- The running commands and the tasks that may be aborted. -/
  running : List (String × Nat) := []
  tasks : List (CommandTask Value Progress) := []
  written : List (RuntimeToControl Value Progress Delta) := []

inductive ConnectionLabel (Value Progress Delta : Type) where
  | heartbeat
  | browse (workspaceId : String) (delta : Delta)
  | drain
  | command (commandId : String) (materializes : Bool)
  | cancel (commandId : String)
  | finishCancel
  | reportProgress (task : Nat) (progress : Progress)
  | takeProgress (task : Nat)
  | forwardProgress (task : Nat)
  | executed (task : Nat) (result : Except RuntimeCommandError Value)
  | flushed (task : Nat)
  | unregister (task : Nat)
  | sendResult (task : Nat)
  | dropTask (task : Nat)
  | reconnect

namespace Connection

variable (state : Connection Value Progress Delta)

def write (frame : RuntimeToControl Value Progress Delta) : Connection Value Progress Delta :=
  { state with written := state.written ++ [frame] }

variable (index : Nat)

def setTask (task : CommandTask Value Progress) : Connection Value Progress Delta :=
  { state with tasks := state.tasks.set index task }

/-- A branch of `select!`. -/
def whenSelecting
    (branch : Connection Value Progress Delta → Option (Connection Value Progress Delta)) :
    Option (Connection Value Progress Delta) :=
  match state.loop with
  | .selecting => branch state
  | .sendingCancelled _ => none

/-- A request of a task to send, which ends at once where the loop that would receive it is
gone. The answer tells whether it is over. -/
def sendFrom (task : CommandTask Value Progress)
    (sender : Sender) (frame : RuntimeToControl Value Progress Delta) :
    Option (Connection Value Progress Delta × Bool) :=
  if task.connected then
    (state.results.send queueCapacity sender frame).map fun (results, sent) =>
      ({ state with results }, sent)
  else some (state, true)

def cancelled (commandId : String) : RuntimeToControl Value Progress Delta :=
  .result commandId
    (.error { code := "runtime_cancelled", message := "runtime command cancelled" })

def insertRunning (running : List (String × Nat)) (commandId : String) (task : Nat) :
    List (String × Nat) :=
  (commandId, task) :: running.filter (·.1 ≠ commandId)

/-- The task is spawned and recorded under the lock. -/
def onCommand (commandId : String) (materializes : Bool) : Connection Value Progress Delta :=
  { state with
    tasks := state.tasks ++ [{ commandId, forward := if materializes then some {} else none }]
    running := insertRunning state.running commandId state.tasks.length }

def abort : Connection Value Progress Delta :=
  { state with tasks := state.tasks.modify index fun task => { task with aborted := true } }

/-- The loop asks to send the answer of a cancellation, and goes on when it is sent. -/
def sendCancelled (commandId : String) : Option (Connection Value Progress Delta) :=
  (state.results.send queueCapacity .loop (cancelled commandId)).map fun (results, sent) =>
    { state with results, loop := if sent then .selecting else .sendingCancelled commandId }

/-- A running command is removed and aborted, and its answer is sent. The guard of the lock
lives until the answer is in the queue. -/
def onCancel (commandId : String) : Option (Connection Value Progress Delta) :=
  match state.running.lookup commandId with
  | none => some state
  | some task =>
    ({ state with running := state.running.filter (·.1 ≠ commandId) }.abort task).sendCancelled
      commandId

def finishCancel : Option (Connection Value Progress Delta) :=
  match state.loop with
  | .selecting => none
  | .sendingCancelled commandId => state.sendCancelled commandId

def onTask (act : CommandTask Value Progress → Option (Connection Value Progress Delta)) :
    Option (Connection Value Progress Delta) :=
  state.tasks[index]?.bind act

def reportProgress (progress : Progress) : Option (Connection Value Progress Delta) :=
  state.onTask index fun task =>
    match task.phase, task.forward with
    | .executing, some forward =>
      if forward.queue.length < queueCapacity then
        let grown := { forward with queue := forward.queue ++ [progress] }
        some (state.setTask index { task with forward := some grown })
      else none
    | _, _ => none

def takeProgress : Option (Connection Value Progress Delta) :=
  state.onTask index fun task =>
    match task.forward with
    | some { queue := progress :: queue, holding := none } =>
      some (state.setTask index { task with forward := some { queue, holding := some progress } })
    | _ => none

def forwardProgress : Option (Connection Value Progress Delta) :=
  state.onTask index fun task =>
    match task.forward with
    | some { queue, holding := some progress } =>
      (state.sendFrom task (.forwarder index) (.progress task.commandId progress)).map
        fun (after, sent) =>
          if sent then after.setTask index { task with forward := some { queue, holding := none } }
          else after
    | _ => none

def executed
    (result : Except RuntimeCommandError Value) : Option (Connection Value Progress Delta) :=
  state.onTask index fun task =>
    match task.phase with
    | .executing => some (state.setTask index { task with phase := .flushing result })
    | _ => none

def flushed : Option (Connection Value Progress Delta) :=
  state.onTask index fun task =>
    match task.phase with
    | .flushing result =>
      if task.isFlushed then
        some (state.setTask index { task with phase := .unregistering result })
      else none
    | _ => none

/-- A task takes itself off the running commands when it gets their lock. -/
def unregister : Option (Connection Value Progress Delta) :=
  state.onTask index fun task =>
    match task.phase, state.loop with
    | .unregistering result, .selecting =>
      some ({ state with running := state.running.filter (·.1 ≠ task.commandId) }.setTask index
        { task with phase := .sending result })
    | _, _ => none

def sendResult : Option (Connection Value Progress Delta) :=
  state.onTask index fun task =>
    match task.phase with
    | .sending result =>
      (state.sendFrom task (.task index) (.result task.commandId result)).map fun (after, sent) =>
        if sent then after.setTask index { task with phase := .done } else after
    | _ => none

/-- An aborted task ends at a point where it waits; a slot that was kept for it is the next
sender's. -/
def dropTask : Option (Connection Value Progress Delta) :=
  state.onTask index fun task =>
    if task.aborted && !task.phase.isEnded then
      some ({ state with results := state.results.withdraw (.task index) }.setTask index
        { task with phase := .dropped })
    else none

def step : ConnectionLabel Value Progress Delta → Option (Connection Value Progress Delta)
  | .heartbeat => state.whenSelecting fun state => some (state.write .heartbeat)
  | .browse workspaceId delta =>
    state.whenSelecting fun state => some (state.write (.browseFsChanged workspaceId delta))
  | .drain => state.whenSelecting fun state =>
    match state.results.frames with
    | [] => none
    | frame :: rest =>
      some ({ state with results := { state.results with frames := rest } }.write frame)
  | .command commandId materializes =>
    state.whenSelecting fun state => some (state.onCommand commandId materializes)
  | .cancel commandId => state.whenSelecting fun state => state.onCancel commandId
  | .finishCancel => state.finishCancel
  | .reportProgress task progress => state.reportProgress task progress
  | .takeProgress task => state.takeProgress task
  | .forwardProgress task => state.forwardProgress task
  | .executed task result => state.executed task result
  | .flushed task => state.flushed task
  | .unregister task => state.unregister task
  | .sendResult task => state.sendResult task
  | .dropTask task => state.dropTask task
  -- The control plane closes the connection and the runtime connects once more. Its commands
  -- go on, and send to nobody.
  | .reconnect => state.whenSelecting fun state =>
    some { state with
      results := {}
      tasks := state.tasks.map fun task => { task with connected := false }
      written := [] }

/-- The steps of the loop, the others being the tasks'. -/
def isOfLoop : ConnectionLabel Value Progress Delta → Bool
  | .heartbeat | .browse .. | .drain | .command .. | .cancel _ | .finishCancel | .reconnect => true
  | _ => false

/-- The steps that take the loop or a task further: a result is drained, a frame is read, or
a task ends. -/
def goesOn : ConnectionLabel Value Progress Delta → Bool
  | .drain | .command .. | .cancel _ | .sendResult _ | .dropTask _ => true
  | _ => false

/-- The task or forwarder that takes a step. -/
def taskOf : ConnectionLabel Value Progress Delta → Option Nat
  | .takeProgress task | .forwardProgress task | .executed task _ | .flushed task
  | .unregister task | .sendResult task => some task
  | _ => none

/-- A cancellation of a running command finds a slot for its answer, that none waits for. -/
def Admits : ConnectionLabel Value Progress Delta → Prop
  | .cancel commandId => (state.running.lookup commandId).isSome = true →
    state.results.hasRoom queueCapacity = true
  | _ => True

/-- A fresh runtime that has connected. -/
def machine : Machine (Connection Value Progress Delta) (ConnectionLabel Value Progress Delta) :=
  .ofSteps (· = {}) step

variable {state after later : Connection Value Progress Delta}
  {label : ConnectionLabel Value Progress Delta} {index : Nat}

theorem onTask_eq_some {act : CommandTask Value Progress → Option (Connection Value Progress Delta)}
    (acted : state.onTask index act = some after) :
    ∃ task, state.tasks[index]? = some task ∧ act task = some after :=
  bind_eq_some_iff.mp acted

/-- The forwarder has progress to send, to a loop that is there. -/
def forwards (task : CommandTask Value Progress) : Bool :=
  task.connected && (task.forward.bind (·.holding)).isSome

/-- The task has its result to send, to a loop that is there. -/
def sends (task : CommandTask Value Progress) : Bool :=
  task.connected && match task.phase with
    | .sending _ => true
    | _ => false

/-- A sender has something to send. -/
def Waits (state : Connection Value Progress Delta) : Sender → Prop
  | .loop => state.loop ≠ .selecting
  | .forwarder index => ∃ task, state.tasks[index]? = some task ∧ forwards task = true
  | .task index => ∃ task, state.tasks[index]? = some task ∧ sends task = true

/-- Who waits for a slot has something to send. -/
def SendersWait (state : Connection Value Progress Delta) : Prop :=
  ∀ sender ∈ state.results.waiting, state.Waits sender

/-- A step of a task leaves the loop. It leaves a full queue, and who waits has reason to. -/
structure TaskStep (state after : Connection Value Progress Delta) : Prop where
  loop : after.loop = state.loop
  full : queueCapacity ≤ state.results.frames.length → after.results.frames = state.results.frames
  waits : state.SendersWait → after.SendersWait

variable {task next : CommandTask Value Progress} {running : List (String × Nat)}
  {results : Channel Sender (RuntimeToControl Value Progress Delta)}

theorem SendersWait.setTask (wait : state.SendersWait) (found : state.tasks[index]? = some task)
    (among : ∀ sender ∈ results.waiting, sender ∈ state.results.waiting)
    (forwarding : .forwarder index ∈ results.waiting → forwards task = true → forwards next = true)
    (sending : .task index ∈ results.waiting → sends task = true → sends next = true) :
    SendersWait { state with results, running, tasks := state.tasks.set index next } := by
  have inBounds := (List.getElem?_eq_some_iff.mp found).1
  intro sender isWaiting
  have waits := wait sender (among sender isWaiting)
  cases sender with
  | loop => exact waits
  | forwarder other | task other =>
    obtain ⟨waiter, isTask, hasFrame⟩ := waits
    by_cases same : index = other
    · subst same
      cases found.symm.trans isTask
      exact ⟨next, getElem?_set_self inBounds, by solve_by_elim⟩
    · exact ⟨waiter, (getElem?_set_ne same).trans isTask, hasFrame⟩

/-- A task that changes without a word to the queue. -/
theorem TaskStep.setTask (found : state.tasks[index]? = some task)
    (forwarding : forwards task = true → forwards next = true)
    (sending : sends task = true → sends next = true) :
    TaskStep state { state with running, tasks := state.tasks.set index next } where
  loop := rfl
  full _ := rfl
  waits wait := wait.setTask found (fun _ => id) (fun _ => forwarding) (fun _ => sending)

/-- A task asks to send. Where it waits it has a reason to, and where it has sent it goes on. -/
theorem TaskStep.sendFrom {sender : Sender} {frame : RuntimeToControl Value Progress Delta}
    (found : state.tasks[index]? = some task)
    (acts : (state.sendFrom task sender frame).map (fun (after, sent) =>
      if sent then after.setTask index next else after) = some after)
    (asking : task.connected = true → state.Waits sender)
    (forwarding : sender ≠ .forwarder index → forwards task = true → forwards next = true)
    (sending : sender ≠ .task index → sends task = true → sends next = true) :
    TaskStep state after := by
  obtain ⟨⟨asked, sent⟩, isAsked, rfl⟩ := map_eq_some_iff.mp acts
  rw [Connection.sendFrom] at isAsked
  split at isAsked
  · rename_i connected
    obtain ⟨⟨results, _⟩, isSent, same⟩ := map_eq_some_iff.mp isAsked
    cases same
    cases Channel.send_sends isSent with
    | sent slot =>
      refine ⟨rfl, fun full => absurd slot (Nat.not_lt.mpr full), fun wait => ?_⟩
      refine wait.setTask found (fun _ => mem_of_mem_filter) ?_ ?_
      · exact fun stays => forwarding fun own => by simp [Channel.withdraw, own] at stays
      · exact fun stays => sending fun own => by simp [Channel.withdraw, own] at stays
    | waits =>
      refine ⟨rfl, fun _ => rfl, fun wait other isWaiting => ?_⟩
      rcases Library.mem_concat.mp isWaiting with before | rfl
      · exact wait other before
      · exact asking connected
  · rename_i gone
    cases isAsked
    refine .setTask found ?_ ?_
    · exact fun holds => absurd holds (by simp [forwards, gone])
    · exact fun holds => absurd holds (by simp [sends, gone])

theorem reportProgress_taskStep {progress : Progress}
    (acted : state.reportProgress index progress = some after) : TaskStep state after := by
  obtain ⟨_, found, acts⟩ := onTask_eq_some acted
  split at acts
  · rename_i executing hForward
    split at acts
    · cases acts
      exact .setTask found (by simp [forwards, hForward]) (by simp [sends, executing])
    · cases acts
  · cases acts

theorem takeProgress_taskStep (acted : state.takeProgress index = some after) :
    TaskStep state after := by
  obtain ⟨_, found, acts⟩ := onTask_eq_some acted
  split at acts
  · rename_i hForward
    cases acts
    exact .setTask found (by simp [forwards, hForward]) id
  · cases acts

theorem forwardProgress_taskStep (acted : state.forwardProgress index = some after) :
    TaskStep state after := by
  obtain ⟨task, found, acts⟩ := onTask_eq_some acted
  split at acts
  · rename_i hForward
    refine .sendFrom found acts (fun connected => ⟨task, found, ?_⟩) (absurd rfl) fun _ => id
    simp [forwards, connected, hForward]
  · cases acts

theorem executed_taskStep {result : Except RuntimeCommandError Value}
    (acted : state.executed index result = some after) : TaskStep state after := by
  obtain ⟨_, found, acts⟩ := onTask_eq_some acted
  split at acts
  · rename_i executing
    cases acts
    exact .setTask found id (by simp [sends, executing])
  · cases acts

theorem flushed_taskStep (acted : state.flushed index = some after) : TaskStep state after := by
  obtain ⟨_, found, acts⟩ := onTask_eq_some acted
  split at acts
  · rename_i flushing
    split at acts
    · cases acts
      exact .setTask found id (by simp [sends, flushing])
    · cases acts
  · cases acts

theorem unregister_taskStep (acted : state.unregister index = some after) :
    TaskStep state after := by
  obtain ⟨_, found, acts⟩ := onTask_eq_some acted
  split at acts
  · rename_i unregistering _
    cases acts
    exact .setTask found id (by simp [sends, unregistering])
  · cases acts

theorem sendResult_taskStep (acted : state.sendResult index = some after) :
    TaskStep state after := by
  obtain ⟨task, found, acts⟩ := onTask_eq_some acted
  split at acts
  · rename_i sending
    refine .sendFrom found acts (fun connected => ⟨task, found, ?_⟩) (fun _ => id) (absurd rfl)
    simp [sends, connected, sending]
  · cases acts

theorem dropTask_taskStep (acted : state.dropTask index = some after) : TaskStep state after := by
  obtain ⟨_, found, acts⟩ := onTask_eq_some acted
  split at acts
  · cases acts
    refine ⟨rfl, fun _ => rfl, fun wait => wait.setTask found (fun _ => mem_of_mem_filter)
      (fun _ => id) fun stays => ?_⟩
    simp [Channel.withdraw] at stays
  · cases acts

theorem taskStep_of_step (ofTask : isOfLoop label = false)
    (stepped : state.step label = some after) : TaskStep state after := by
  cases label with
  | reportProgress => exact reportProgress_taskStep stepped
  | takeProgress => exact takeProgress_taskStep stepped
  | forwardProgress => exact forwardProgress_taskStep stepped
  | executed => exact executed_taskStep stepped
  | flushed => exact flushed_taskStep stepped
  | unregister => exact unregister_taskStep stepped
  | sendResult => exact sendResult_taskStep stepped
  | dropTask => exact dropTask_taskStep stepped
  | _ => cases ofTask

theorem SendersWait.abort (wait : state.SendersWait) (task : Nat) :
    (state.abort task).SendersWait := by
  intro sender isWaiting
  have waits := wait sender isWaiting
  cases sender with
  | loop => exact waits
  | forwarder other | task other =>
    obtain ⟨waiter, isTask, hasFrame⟩ := waits
    by_cases same : task = other
    · refine ⟨{ waiter with aborted := true }, ?_, hasFrame⟩
      simp [Connection.abort, same, isTask]
    · refine ⟨waiter, ?_, hasFrame⟩
      simp [Connection.abort, same, isTask]

theorem SendersWait.onCommand (wait : state.SendersWait) (commandId : String)
    (materializes : Bool) : (state.onCommand commandId materializes).SendersWait := by
  intro sender isWaiting
  have waits := wait sender isWaiting
  cases sender with
  | loop => exact waits
  | forwarder | task =>
    obtain ⟨waiter, isTask, hasFrame⟩ := waits
    refine ⟨waiter, ?_, hasFrame⟩
    rw [Connection.onCommand, getElem?_append_left (List.getElem?_eq_some_iff.mp isTask).1, isTask]

/-- The loop selects, and who waits for a slot has reason to. -/
structure Serves (state : Connection Value Progress Delta) : Prop where
  selecting : state.loop = .selecting
  wait : state.SendersWait

namespace Serves

variable (serves : state.Serves)
include serves

theorem whenSelecting
    (branch : Connection Value Progress Delta → Option (Connection Value Progress Delta)) :
    state.whenSelecting branch = branch state := by
  rw [Connection.whenSelecting, serves.selecting]

theorem loop_asks : .loop ∉ state.results.waiting := fun waits =>
  serves.wait .loop waits serves.selecting

theorem onCancel {commandId : String} (admits : state.Admits (.cancel commandId))
    (acted : state.onCancel commandId = some after) : after.Serves := by
  rw [Connection.onCancel] at acted
  split at acted
  · cases acted
    exact serves
  · rename_i task found
    have room := admits (by rw [found]; rfl)
    obtain ⟨⟨_, _⟩, sent, rfl⟩ := map_eq_some_iff.mp acted
    cases (Channel.send_of_hasRoom serves.loop_asks room).symm.trans sent
    refine ⟨rfl, fun sender isWaiting => ?_⟩
    have removed : SendersWait { state with
        running := state.running.filter (·.1 ≠ commandId) } := serves.wait
    have waits := removed.abort task sender (mem_of_mem_filter isWaiting)
    cases sender with
    | loop => simp [Channel.withdraw] at isWaiting
    | forwarder | task => exact waits

/-- An admitted step leaves the loop selecting and its waits justified. -/
theorem step (admits : state.Admits label) (stepped : state.step label = some after) :
    after.Serves := by
  cases ofLoop : isOfLoop label with
  | false =>
    have own := taskStep_of_step ofLoop stepped
    exact ⟨own.loop.trans serves.selecting, own.waits serves.wait⟩
  | true =>
    cases label with
    | heartbeat | browse =>
      rw [Connection.step, serves.whenSelecting] at stepped
      cases stepped
      exact ⟨serves.selecting, serves.wait⟩
    | drain =>
      rw [Connection.step, serves.whenSelecting] at stepped
      split at stepped
      · cases stepped
      · cases stepped
        exact ⟨serves.selecting, serves.wait⟩
    | command commandId materializes =>
      rw [Connection.step, serves.whenSelecting] at stepped
      cases stepped
      exact ⟨serves.selecting, serves.wait.onCommand commandId materializes⟩
    | cancel =>
      rw [Connection.step, serves.whenSelecting] at stepped
      exact serves.onCancel admits stepped
    | reconnect =>
      rw [Connection.step, serves.whenSelecting] at stepped
      cases stepped
      exact ⟨serves.selecting, fun _ waits => absurd waits not_mem_nil⟩
    | finishCancel =>
      rw [Connection.step, finishCancel, serves.selecting] at stepped
      cases stepped
    | _ => cases ofLoop

end Serves

/-- The runs in which every cancellation of a running command finds a slot for its answer. -/
def roomyRuns : Machine (Connection Value Progress Delta) (ConnectionLabel Value Progress Delta) :=
  machine.guarded Admits

theorem serves_of_reaches (reaches : roomyRuns.Reaches state) : state.Serves := by
  apply reaches.invariant (motive := Serves)
  · rintro state rfl
    exact ⟨rfl, fun _ waits => absurd waits not_mem_nil⟩
  · rintro state label after - serves ⟨admits, stepped⟩
    exact serves.step admits stepped

/-- A task or its forwarder can take a step. -/
def TaskGoesOn (state : Connection Value Progress Delta) (index : Nat) : Prop :=
  ∃ label after, taskOf label = some index ∧ state.step label = some after

theorem taskGoesOn_of_isSome (label : ConnectionLabel Value Progress Delta)
    (own : taskOf label = some index) (enabled : (state.step label).isSome) :
    state.TaskGoesOn index := by
  obtain ⟨after, stepped⟩ := isSome_iff_exists.mp enabled
  exact ⟨label, after, own, stepped⟩

/-- The loop can drain a result, or a task that a slot is kept for can send. -/
def QueueGoesOn (state : Connection Value Progress Delta) : Prop :=
  (∃ after, state.step .drain = some after) ∨
    ∃ index, (.forwarder index ∈ state.results.granted queueCapacity ∨
      .task index ∈ state.results.granted queueCapacity) ∧ state.TaskGoesOn index

theorem sendFrom_isSome {sender : Sender} {frame : RuntimeToControl Value Progress Delta}
    (enabled : (state.results.send queueCapacity sender frame).isSome) :
    (state.sendFrom task sender frame).isSome := by
  rw [sendFrom]
  split
  · rwa [isSome_map]
  · rfl

theorem forwardProgress_goesOn (found : state.tasks[index]? = some task)
    {queue : List Progress} {progress : Progress}
    (holds : task.forward = some { queue, holding := some progress })
    (enabled : (state.results.send queueCapacity (.forwarder index)
      (.progress task.commandId progress)).isSome) : state.TaskGoesOn index := by
  refine taskGoesOn_of_isSome (.forwardProgress index) rfl ?_
  rw [step, forwardProgress, onTask, found, bind_some, holds]
  simp only [isSome_map]
  exact sendFrom_isSome enabled

theorem sendResult_goesOn (found : state.tasks[index]? = some task)
    {result : Except RuntimeCommandError Value} (sending : task.phase = .sending result)
    (enabled : (state.results.send queueCapacity (.task index)
      (.result task.commandId result)).isSome) : state.TaskGoesOn index := by
  refine taskGoesOn_of_isSome (.sendResult index) rfl ?_
  rw [step, sendResult, onTask, found, bind_some, sending]
  simp only [isSome_map]
  exact sendFrom_isSome enabled

section

variable (serves : state.Serves)
include serves

theorem drain_of_serves (filled : state.results.frames ≠ []) :
    ∃ after, state.step .drain = some after := by
  obtain ⟨_, _, same⟩ := exists_cons_of_ne_nil filled
  rw [step, serves.whenSelecting, same]
  exact ⟨_, rfl⟩

/-- Who is kept back from sending waits for a queue that goes on. -/
theorem send_isSome_or_goesOn (sender : Sender) (frame : RuntimeToControl Value Progress Delta) :
    (state.results.send queueCapacity sender frame).isSome ∨ state.QueueGoesOn := by
  rcases state.results.send_isSome_or sender frame (show 0 < queueCapacity by decide) with
    enabled | filled | ⟨first, granted⟩
  · exact .inl enabled
  · exact .inr (.inl (drain_of_serves serves filled))
  · refine .inr (.inr ?_)
    have waits := serves.wait first (Channel.granted_subset granted)
    cases first with
    | loop => exact absurd serves.selecting waits
    | forwarder index =>
      obtain ⟨task, found, hasFrame⟩ := waits
      rw [forwards, Bool.and_eq_true] at hasFrame
      obtain ⟨progress, isHeld⟩ := isSome_iff_exists.mp hasFrame.2
      obtain ⟨⟨queue, _⟩, isForward, rfl⟩ := bind_eq_some_iff.mp isHeld
      refine ⟨index, .inl granted, forwardProgress_goesOn found isForward ?_⟩
      rw [Channel.send_of_granted granted, isSome_some]
    | task index =>
      obtain ⟨task, found, hasFrame⟩ := waits
      rw [sends, Bool.and_eq_true] at hasFrame
      cases phase : task.phase with
      | sending =>
        refine ⟨index, .inr granted, sendResult_goesOn found phase ?_⟩
        rw [Channel.send_of_granted granted, isSome_some]
      | _ =>
        rw [phase] at hasFrame
        cases hasFrame.2

theorem task_goes_on (found : state.tasks[index]? = some task)
    (unended : task.phase.isEnded = false) : state.TaskGoesOn index ∨ state.QueueGoesOn := by
  have acts (act : CommandTask Value Progress → Option (Connection Value Progress Delta)) :
      state.onTask index act = act task := by
    rw [onTask, found, bind_some]
  have flushes (result : Except RuntimeCommandError Value) (phase : task.phase = .flushing result)
      (isFlushed : task.isFlushed) : state.TaskGoesOn index := by
    refine taskGoesOn_of_isSome (.flushed index) rfl ?_
    rw [step, flushed, acts, phase]
    simp only [isFlushed, if_true]
    rfl
  cases phase : task.phase with
  | executing =>
    refine .inl (taskGoesOn_of_isSome (.executed index (.error ⟨"", ""⟩)) rfl ?_)
    rw [step, executed, acts, phase]
    rfl
  | flushing result =>
    cases forward : task.forward with
    | none => exact .inl (flushes result phase (by rw [CommandTask.isFlushed, forward]))
    | some forwarder =>
      obtain ⟨queue, holding⟩ := forwarder
      cases holding with
      | some progress =>
        exact (send_isSome_or_goesOn serves _ _).imp_left (forwardProgress_goesOn found forward)
      | none =>
        cases queue with
        | nil => exact .inl (flushes result phase (by rw [CommandTask.isFlushed, forward]; rfl))
        | cons =>
          refine .inl (taskGoesOn_of_isSome (.takeProgress index) rfl ?_)
          rw [step, takeProgress, acts, forward]
          rfl
  | unregistering =>
    refine .inl (taskGoesOn_of_isSome (.unregister index) rfl ?_)
    rw [step, unregister, acts, phase, serves.selecting]
    rfl
  | sending result =>
    exact (send_isSome_or_goesOn serves _ _).imp_left (sendResult_goesOn found phase)
  | done | dropped =>
    rw [phase] at unended
    cases unended

theorem cancel_isSome (commandId : String) :
    ∃ after, state.step (.cancel commandId) = some after := by
  rw [step, serves.whenSelecting, onCancel]
  split
  · exact ⟨_, rfl⟩
  · rw [sendCancelled, ← isSome_iff_exists, isSome_map]
    exact Channel.send_isSome_of_asks serves.loop_asks

end

/-- The loop is never in the way: what is in the queue can be drained, every frame can be
read, and a task that has not ended can go on or waits for a queue that goes on. -/
theorem loop_never_blocks (reaches : roomyRuns.Reaches state) :
    state.loop = .selecting ∧
      (state.results.frames ≠ [] → ∃ after, state.step .drain = some after) ∧
      (∀ commandId materializes,
        ∃ after, state.step (.command commandId materializes) = some after) ∧
      (∀ commandId, ∃ after, state.step (.cancel commandId) = some after) ∧
      ∀ index task, state.tasks[index]? = some task → task.phase.isEnded = false →
        state.TaskGoesOn index ∨ state.QueueGoesOn := by
  have serves := serves_of_reaches reaches
  refine ⟨serves.selecting, drain_of_serves serves, fun commandId materializes => ?_,
    cancel_isSome serves, fun index task found unended => task_goes_on serves found unended⟩
  rw [step, serves.whenSelecting]
  exact ⟨_, rfl⟩

/-- The loop waits while the queue is full that only it could drain. -/
structure Hangs (state : Connection Value Progress Delta) : Prop where
  waits : state.loop ≠ .selecting
  full : queueCapacity ≤ state.results.frames.length

theorem Hangs.selects (hangs : state.Hangs)
    (branch : Connection Value Progress Delta → Option (Connection Value Progress Delta)) :
    state.whenSelecting branch = none := by
  rw [whenSelecting]
  split
  · rename_i selecting
    exact absurd selecting hangs.waits
  · rfl

/-- No step leads out of the wait. -/
theorem Hangs.step (hangs : state.Hangs) (stepped : state.step label = some after) :
    after.Hangs := by
  cases ofLoop : isOfLoop label with
  | false =>
    have own := taskStep_of_step ofLoop stepped
    exact ⟨own.loop ▸ hangs.waits, own.full hangs.full ▸ hangs.full⟩
  | true =>
    cases label with
    | finishCancel =>
      rw [Connection.step, finishCancel] at stepped
      split at stepped
      · cases stepped
      · obtain ⟨⟨_, _⟩, asked, rfl⟩ := map_eq_some_iff.mp stepped
        cases Channel.send_sends asked with
        | sent slot => exact absurd slot (Nat.not_lt.mpr hangs.full)
        | waits => exact ⟨LoopPoint.noConfusion, hangs.full⟩
    | heartbeat | browse | drain | command | cancel | reconnect =>
      rw [Connection.step, hangs.selects] at stepped
      cases stepped
    | _ => cases ofLoop

/-- No step of any task ever ends the wait. -/
theorem hangs_forever (hangs : state.Hangs) (leads : machine.Leads state later) :
    later.Hangs := by
  induction leads with
  | refl => exact hangs
  | next _ last ih => exact ih.step last

instance : (label : ConnectionLabel Value Progress Delta) → Decidable (state.Admits label)
  | .cancel commandId => inferInstanceAs
      (Decidable ((state.running.lookup commandId).isSome = true →
        state.results.hasRoom queueCapacity = true))
  | .heartbeat | .browse .. | .drain | .command .. | .finishCancel | .reportProgress ..
  | .takeProgress _ | .forwardProgress _ | .executed .. | .flushed _ | .unregister _
  | .sendResult _ | .dropTask _ | .reconnect => .isTrue trivial

/-- The command reports its progress, the forwarder queues it, and then it is cancelled. -/
def cancelScript (count : Nat) : List (ConnectionLabel Unit Unit Unit) :=
  .command "materialize" true ::
    (List.replicate count
      [.reportProgress 0 (), .takeProgress 0, .forwardProgress 0]).flatten ++
    [.cancel "materialize", .dropTask 0]

/-- Another command ends while the queue is full, and waits for the slot that is drained. -/
def waitingScript : List (ConnectionLabel Unit Unit Unit) :=
  [.command "list" false, .executed 1 (.ok ()), .flushed 1, .unregister 1, .sendResult 1, .drain]

def runRoomy (script : List (ConnectionLabel Unit Unit Unit)) : Option (Connection Unit Unit Unit) :=
  script.foldlM (fun state label => if decide (state.Admits label) then state.step label else none)
    {}

theorem loop_never_blocks_cancelled : ∃ state : Connection Unit Unit Unit,
    roomyRuns.Reaches state ∧ state.results.frames.length = 31 ∧
      state.results.waiting = [.task 1] ∧ state.loop = .selecting ∧
      (∃ after, state.step .drain = some after) ∧
      (state.TaskGoesOn 1 ∨ state.QueueGoesOn) := by
  have runs : (runRoomy (cancelScript 31 ++ waitingScript)).map (fun state =>
      (state.results.frames.length, state.results.waiting,
        (state.tasks[1]?.map (·.phase.isEnded)))) = some (31, [.task 1], some false) := by
    decide +kernel
  obtain ⟨state, hRun, facts⟩ := map_eq_some_iff.mp runs
  simp only [Prod.mk.injEq] at facts
  obtain ⟨filled, waits, unended⟩ := facts
  obtain ⟨task, found, unended⟩ := map_eq_some_iff.mp unended
  have reaches : roomyRuns.Reaches state :=
    Machine.Reaches.checkedRun (fun _ _ => of_decide_eq_true) (.start rfl) hRun
  have nonempty : state.results.frames ≠ [] := by
    rw [← length_pos_iff, filled]
    decide
  obtain ⟨selecting, drains, -, -, goesOn⟩ := loop_never_blocks reaches
  exact ⟨state, reaches, filled, waits, selecting, drains nonempty, goesOn 1 task found unended⟩

/-- The queue is full when the command is cancelled: nothing drains, reads or ends any more. -/
theorem cancelled_command_blocks_loop : ∃ state : Connection Unit Unit Unit,
    machine.Reaches state ∧ ∀ label, goesOn label = true → state.step label = none := by
  have runs : ((cancelScript 32).foldlM step ({} : Connection Unit Unit Unit)).map
        (fun state => (state.loop, decide (queueCapacity ≤ state.results.frames.length),
          state.tasks.all (·.phase.isEnded))) =
        some (.sendingCancelled "materialize", true, true) := by
    decide +kernel
  obtain ⟨state, hRun, facts⟩ := map_eq_some_iff.mp runs
  simp only [Prod.mk.injEq] at facts
  obtain ⟨waits, full, ended⟩ := facts
  have hangs : state.Hangs := ⟨by rw [waits]; nofun, of_decide_eq_true full⟩
  have isEnded (index : Nat) (task : CommandTask Unit Unit)
      (found : state.tasks[index]? = some task) : task.phase.isEnded :=
    all_eq_true.mp ended task (mem_of_getElem? found)
  refine ⟨state, Machine.Reaches.run (.start rfl) hRun, fun label isProgress => ?_⟩
  cases label with
  | drain | command | cancel =>
    rw [step]
    exact hangs.selects _
  | sendResult index =>
    rw [step, sendResult, onTask]
    cases found : state.tasks[index]? with
    | none => rfl
    | some task =>
      have := isEnded index task found
      rw [bind_some]
      split
      · rename_i sending
        rw [sending] at this
        cases this
      · rfl
  | dropTask index =>
    rw [step, dropTask, onTask]
    cases found : state.tasks[index]? with
    | none => rfl
    | some task =>
      rw [bind_some, isEnded index task found, Bool.not_true, Bool.and_false]
      rfl
  | _ => cases isProgress

end Connection

end PiRelay.AgentRuntime
