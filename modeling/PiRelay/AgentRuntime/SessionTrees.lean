import Mathlib.Data.String.Basic

/-! The trees of directories that hold the workspaces of sessions, and the commands of the
runtime that make them (`workspaces/mod.rs`). -/
namespace PiRelay.AgentRuntime

/-- The directory of a session, without or with the `cwd` below it. -/
inductive SessionTree where
  | absent
  | root
  | whole
deriving DecidableEq

/-- The steps of the commands that can fail, but for the making of the root. -/
inductive TreeStep where
  | parseProjectId
  | rootMissing
  | createSubvolume
  | removeStaleBases
  | materializeWorkspace (workspaceDir : String)
  | ensureParent
  | outsideParent
  | ensureOwnsCwd
  | snapshot
  | removeHandoff
  | forkWorkspace (workspaceDir : String)
deriving DecidableEq

/-- What a command does before the root, after it without any cleanup, and under its
cleanup. -/
structure TreeCommand where
  checks : List TreeStep
  bare : List TreeStep
  guarded : List TreeStep

def materializeSession (workspaceDirs : List String) : TreeCommand where
  checks := [.parseProjectId, .rootMissing]
  bare := [.createSubvolume]
  guarded := .removeStaleBases :: workspaceDirs.map .materializeWorkspace

def forkSessionFromParent (workspaceDirs : List String) : TreeCommand where
  checks := [.ensureParent, .outsideParent, .rootMissing]
  bare := []
  guarded := [.ensureOwnsCwd, .snapshot, .removeHandoff] ++ workspaceDirs.map .forkWorkspace

def TreeStep.made (tree : SessionTree) : TreeStep → SessionTree
  | .createSubvolume => .whole
  | .snapshot => .whole
  | _ => tree

/-- Where a command stands at the runtime. -/
inductive TreeTask where
  | unsent
  | checking (rest : List TreeStep)
  | bare (rest : List TreeStep)
  | guarded (rest : List TreeStep)
  | cleaning
  | ended (ok : Bool)
  | aborted
deriving DecidableEq

namespace TreeTask

def running : TreeTask → Bool
  | .checking _ => true
  | .bare _ => true
  | .guarded _ => true
  | .cleaning => true
  | _ => false

/-- The command has the root, and has not ended. -/
def making : TreeTask → Bool
  | .bare _ => true
  | .guarded _ => true
  | .cleaning => true
  | _ => false

/-- An error of the next step leaves the root behind. -/
def unshielded : TreeTask → Bool
  | .bare (_ :: _) => true
  | _ => false

/-- The next step of a command, which may fail. -/
def advance (command : TreeCommand) (tree : SessionTree) (ok : Bool) :
    TreeTask → Option (TreeTask × SessionTree)
  | .checking (step :: rest) =>
    if ok && (step != .rootMissing || tree == .absent) then some (.checking rest, tree)
    else some (.ended false, tree)
  | .checking [] => if ok then some (.bare command.bare, .root) else some (.ended false, tree)
  | .bare (step :: rest) =>
    if ok then some (.bare rest, step.made tree) else some (.ended false, tree)
  | .bare [] => some (.guarded command.guarded, tree)
  | .guarded (step :: rest) =>
    if ok then some (.guarded rest, step.made tree) else some (.cleaning, tree)
  | .guarded [] => some (.ended true, tree)
  | .cleaning => some (.ended false, .absent)
  | _ => none

variable {command : TreeCommand} {tree after : SessionTree} {task next : TreeTask} {ok : Bool}

/-- How a command and its tree belong together. -/
structure Kept (task : TreeTask) (tree : SessionTree) : Prop where
  unmade : task.making = false → task ≠ .ended true → tree = .absent
  made : task.making = true → tree ≠ .absent

theorem Kept.of_absent (absent : tree = .absent) (idle : task.making = false) : Kept task tree :=
  ⟨fun _ _ => absent, fun making => by rw [idle] at making; cases making⟩

theorem Kept.of_present (present : tree ≠ .absent)
    (busy : task.making ∨ task = .ended true) : Kept task tree := by
  refine ⟨fun idle other => ?_, fun _ => present⟩
  rcases busy with making | ended
  · rw [idle] at making
    cases making
  · exact absurd ended other

theorem made_ne_absent (step : TreeStep) (present : tree ≠ .absent) : step.made tree ≠ .absent := by
  cases step <;> first | exact present | simp [TreeStep.made]

theorem Kept.advance (kept : Kept task tree)
    (isStep : task.advance command tree ok = some (next, after))
    (shielded : ok = false → task.unshielded = false) : Kept next after := by
  cases task with
  | checking steps =>
    have absent := kept.unmade rfl (by simp)
    cases steps with
    | nil =>
      rw [TreeTask.advance] at isStep
      split at isStep
      · cases isStep
        exact .of_present (by simp) (.inl rfl)
      · cases isStep
        exact .of_absent absent rfl
    | cons =>
      rw [TreeTask.advance] at isStep
      split at isStep
      · cases isStep
        exact .of_absent absent rfl
      · cases isStep
        exact .of_absent absent rfl
  | bare steps =>
    have present := kept.made rfl
    cases steps with
    | nil =>
      cases isStep
      exact .of_present present (.inl rfl)
    | cons step =>
      rw [TreeTask.advance] at isStep
      split at isStep
      · cases isStep
        exact .of_present (made_ne_absent step present) (.inl rfl)
      · rename_i failed
        cases shielded (by simpa using failed)
  | guarded steps =>
    have present := kept.made rfl
    cases steps with
    | nil =>
      cases isStep
      exact .of_present present (.inr rfl)
    | cons step =>
      rw [TreeTask.advance] at isStep
      split at isStep
      · cases isStep
        exact .of_present (made_ne_absent step present) (.inl rfl)
      · cases isStep
        exact .of_present present (.inl rfl)
  | cleaning =>
    cases isStep
    exact .of_absent rfl rfl
  | _ => cases isStep

theorem advance_absent (kept : Kept task tree) (absent : tree = .absent)
    (isStep : task.advance command tree ok = some (next, after))
    (unrooted : ok → task ≠ .checking []) : after = .absent := by
  have idle : task.making = false := by
    rw [← Bool.not_eq_true]
    exact fun making => kept.made making absent
  cases task with
  | checking steps =>
    cases steps with
    | nil =>
      rw [TreeTask.advance] at isStep
      split at isStep
      · rename_i isOk
        exact absurd rfl (unrooted isOk)
      · cases isStep
        exact absent
    | cons =>
      rw [TreeTask.advance] at isStep
      split at isStep
      · cases isStep
        exact absent
      · cases isStep
        exact absent
  | unsent | ended | aborted => cases isStep
  | _ => cases idle

theorem running_of_advance (isStep : task.advance command tree ok = some (next, after)) :
    task.running := by
  cases task <;> first | rfl | cases isStep

end TreeTask

end PiRelay.AgentRuntime
