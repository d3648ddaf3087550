import PiRelay.AgentDaemon.TrackedRuns

/-! Consumed inputs and the transcript. An input is taken once no action is
unfinished, whatever the kept core is doing. As long as the core is idle then, the
batch that consumes the input also writes it to the transcript; a core that was
left waiting keeps the input in its mailbox. -/
namespace PiRelay.Runtime

open AgentVocab AgentCore Session Store Option
open Library (Machine)

namespace Daemon

/-- In every run that takes an input only when no failure is left to report, each
consumed row is an item of the stored transcript. -/
theorem consumed_input_in_transcript {daemon : Daemon} (reaches : (trackedRuns true).Reaches daemon)
    {queued : QueuedInput} (mem : queued ∈ daemon.db.queuedInputs)
    (consumed : queued.status = .consumed) :
    queued.content.item ∈ daemon.db.entries.map (·.item) :=
  (trackedRuns_tracked reaches).shown rfl queued mem consumed

/-- The prompt is consumed, and it is in the transcript. -/
theorem consumed_input_in_transcript_prompt :
    ∃ daemon, (trackedRuns true).Reaches daemon ∧
      { priority := .followUp, content := .userMessage (.text "go"), status := .consumed } ∈
        daemon.db.queuedInputs ∧
      .userMessage (.text "go") ∈ daemon.db.entries.map (·.item) := by
  have runs : (promptScript.foldlM
      (fun daemon entry => if trackedCheck true daemon entry then daemon.step entry.label else none)
      ({} : Daemon)).map (·.db.queuedInputs) =
        some [{ priority := .followUp, content := .userMessage (.text "go"), status := .consumed }] := by
    decide +kernel
  obtain ⟨daemon, hRun, hQueue⟩ := map_eq_some_iff.mp runs
  have reaches : (trackedRuns true).Reaches daemon :=
    Machine.Reaches.checkedRun (trackedCheck_sound true) (.start rfl) hRun
  have mem : { priority := .followUp, content := .userMessage (.text "go"), status := .consumed } ∈
      daemon.db.queuedInputs := by
    rw [hQueue]
    exact .head _
  exact ⟨daemon, reaches, mem, consumed_input_in_transcript reaches mem rfl⟩

/-- A second input after the runner's error: no action is unfinished, so it is taken
and handed to the core that still waits for the model. -/
def swallowedScript : List ScriptEntry :=
  strandedScript ++
    [.act (.enqueueInput .followUp (.userMessage (.text "more"))), .act (.request .driveIfQueued),
      .go 3 none [], .go 3 none [], .go 3 none [], .go 3 none [], .go 3 none [], .go 3 none [],
      .go 3 (some 1) []]

theorem failed_runner_swallows_input :
    ∃ daemon, machine.Reaches daemon ∧
      { priority := .followUp, content := .userMessage (.text "more"), status := .consumed } ∈
        daemon.db.queuedInputs ∧
      .userMessage (.text "more") ∉ daemon.db.entries.map (·.item) := by
  have runs : ((swallowedScript.map ScriptEntry.label).foldlM step {}).map
      (fun daemon => (daemon.db.queuedInputs, daemon.db.entries.map (·.item))) =
      some ([{ priority := .followUp, content := .userMessage (.text "go"), status := .consumed },
          { priority := .followUp, content := .userMessage (.text "more"), status := .consumed }],
        [.turnStarted 1, .userMessage (.text "go")]) := by
    decide +kernel
  obtain ⟨daemon, hRun, facts⟩ := map_eq_some_iff.mp runs
  obtain ⟨hQueue, hItems⟩ := Prod.mk.inj facts
  refine ⟨daemon, Machine.Reaches.run (.start rfl) hRun, ?_, ?_⟩
  · rw [hQueue]
    decide
  · rw [hItems]
    decide

end Daemon

end PiRelay.Runtime
