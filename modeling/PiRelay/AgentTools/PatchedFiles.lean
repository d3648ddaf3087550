import PiRelay.AgentTools.PatchFiles

/-! Which files of a workspace a patch keeps. -/
namespace PiRelay.AgentTools

open List

/-- The file that an operation is about. -/
def PatchOp.changed : PatchOp → List Text
  | .add _ _ => []
  | .delete path | .update path _ _ => [path]

/-- The file that is deleted, or the source of a move. -/
def PatchOp.removed : PatchOp → List Text
  | .delete path | .update path (some _) _ => [path]
  | _ => []

/-- The file that is added, or the target of a move. -/
def PatchOp.made : PatchOp → List Text
  | .add path _ | .update _ (some path) _ => [path]
  | _ => []

namespace FileSystem

def utf8 (text : Text) : List UInt8 := (String.ofList text).toUTF8.toList

/-- Every spelling of a path denotes one file, the one that a write or a removal changes. -/
structure Keyed {State : Type} (system : FileSystem State) (Key : Type) where
  key : Text → Key
  same : ∀ state path other, key path = key other →
    system.contents state path = system.contents state other
  write : ∀ state path content after, system.write state path content = .ok after →
    system.contents after path = some (utf8 content) ∧
      ∀ other, key other ≠ key path → system.contents after other = system.contents state other
  removeFile : ∀ state path after, system.removeFile state path = .ok after →
    system.contents after path = none ∧
      ∀ other, key other ≠ key path → system.contents after other = system.contents state other

variable {State Key : Type} {system : FileSystem State} {cwd : Text} (keyed : system.Keyed Key)
variable {state after : State} {path content : Text} {op : PatchOp} {ops : List PatchOp}
variable {change : FileChange} {changes : List FileChange}

/-- A path denotes one of the files that operations name. -/
def Keyed.Among (cwd : Text) (path : Text) (named : List Text) : Prop :=
  ∃ other ∈ named, keyed.key path = keyed.key (workspacePath cwd other)

/-- Where an operation adds a file or moves one to, there is none at that moment. No move is
onto its own source, and no later operation is about the target of a move. -/
structure Keyed.Spares (cwd : Text) (state : State) (ops : List PatchOp) : Prop where
  fresh : ∀ earlier op later middle changes, ops = earlier ++ op :: later →
    system.applyOps cwd state earlier = (middle, .ok changes) →
    ∀ path ∈ op.made, system.contents middle (workspacePath cwd path) = none
  apart : ∀ source target hunks, .update source (some target) hunks ∈ ops →
    keyed.key (workspacePath cwd target) ≠ keyed.key (workspacePath cwd source)
  settled : ∀ earlier source target hunks later,
    ops = earlier ++ .update source (some target) hunks :: later →
    ¬ keyed.Among cwd (workspacePath cwd target) (later.flatMap PatchOp.changed)

theorem writeFile_ok (wrote : system.writeFile state path content = (after, .ok ())) :
    system.contents after path = some (utf8 content) ∧ ∀ other, keyed.key other ≠ keyed.key path →
      system.contents after other = system.contents state other := by
  rw [writeFile] at wrote
  split at wrote
  · cases wrote
  · rename_i made isMade
    split at wrote
    · cases wrote
    · rename_i written isWritten
      cases wrote
      obtain ⟨own, others⟩ := keyed.write _ _ _ _ isWritten
      refine ⟨own, fun other apart => ?_⟩
      rw [others other apart, system.createParent_contents _ _ _ isMade]

theorem applyAdd_kept {lines : List Text}
    (applied : system.applyAdd cwd state path lines = (after, .ok change)) :
    system.writeFile state (workspacePath cwd path) (linesToText lines) = (after, .ok ()) := by
  rw [applyAdd] at applied
  split at applied
  · cases applied
  · split at applied
    rename_i written result wrote
    cases result with
    | error => cases applied
    | ok =>
      cases applied
      exact wrote

theorem applyDelete_kept (applied : system.applyDelete cwd state path = (after, .ok change)) :
    system.removeFile state (workspacePath cwd path) = .ok after := by
  rw [applyDelete] at applied
  split at applied
  · cases applied
  · rename_i removed
    cases applied
    exact withPath_eq_ok removed

variable {other : Text}

/-- An operation changes the file it is about and the file it makes, and no other. -/
theorem applyOp_others (applied : system.applyOp cwd state op = (after, .ok change))
    (unchanged : ¬ keyed.Among cwd other op.changed) (unmade : ¬ keyed.Among cwd other op.made) :
    system.contents after other = system.contents state other := by
  cases op with
  | add path =>
    refine (writeFile_ok keyed (applyAdd_kept applied)).2 other fun same => unmade ?_
    exact ⟨path, mem_singleton_self path, same⟩
  | delete path =>
    refine (keyed.removeFile _ _ _ (applyDelete_kept applied)).2 other fun same => unchanged ?_
    exact ⟨path, mem_singleton_self path, same⟩
  | update path moveTo =>
    have apart : keyed.key other ≠ keyed.key (workspacePath cwd path) := fun same =>
      unchanged ⟨path, mem_singleton_self path, same⟩
    obtain ⟨_, _, -, wrote, removed⟩ := applyUpdate_ok applied
    cases moveTo with
    | none =>
      cases removed
      exact (writeFile_ok keyed wrote).2 other apart
    | some target =>
      rw [(keyed.removeFile _ _ _ removed).2 other apart]
      refine (writeFile_ok keyed wrote).2 other fun same => unmade ?_
      exact ⟨target, mem_singleton_self target, same⟩

include keyed in
theorem writeFile_exists (wrote : system.writeFile state path content = (after, .ok ()))
    (exists' : system.contents state other ≠ none) : system.contents after other ≠ none := by
  obtain ⟨own, others⟩ := writeFile_ok keyed wrote
  by_cases same : keyed.key other = keyed.key path
  · rw [keyed.same after other path same, own]
    exact Option.some_ne_none _
  · rwa [others other same]

/-- An operation removes the file it deletes or moves, and no other. -/
theorem applyOp_exists (applied : system.applyOp cwd state op = (after, .ok change))
    (exists' : system.contents state other ≠ none)
    (stays : ¬ keyed.Among cwd other op.removed) : system.contents after other ≠ none := by
  cases op with
  | add => exact writeFile_exists keyed (applyAdd_kept applied) exists'
  | delete path =>
    rwa [(keyed.removeFile _ _ _ (applyDelete_kept applied)).2 other fun same => stays
      ⟨path, mem_singleton_self path, same⟩]
  | update path moveTo =>
    obtain ⟨_, _, -, wrote, removed⟩ := applyUpdate_ok applied
    have kept := writeFile_exists keyed wrote exists'
    cases moveTo with
    | none =>
      cases removed
      exact kept
    | some =>
      rw [(keyed.removeFile _ _ _ removed).2 other fun same => stays
        ⟨path, mem_singleton_self path, same⟩]
      exact kept

theorem applyOps_cons {rest : List PatchOp}
    (applied : system.applyOps cwd state (op :: rest) = (after, .ok changes)) :
    ∃ middle change others, system.applyOp cwd state op = (middle, .ok change) ∧
      system.applyOps cwd middle rest = (after, .ok others) := by
  rw [applyOps] at applied
  split at applied
  · cases applied
  · rename_i middle change first
    split at applied
    · cases applied
    · rename_i last others later
      cases applied
      exact ⟨middle, change, others, first, later⟩

theorem Keyed.among_append {named others : List Text} :
    keyed.Among cwd path (named ++ others) ↔
      keyed.Among cwd path named ∨ keyed.Among cwd path others := by
  simp only [Keyed.Among, mem_append, or_and_right, exists_or]

section

variable (applied : system.applyOps cwd state ops = (after, .ok changes))
include applied

theorem applyOps_exists (exists' : system.contents state other ≠ none)
    (stays : ¬ keyed.Among cwd other (ops.flatMap PatchOp.removed)) :
    system.contents after other ≠ none := by
  induction ops generalizing state changes with
  | nil =>
    cases applied
    exact exists'
  | cons _ _ ih =>
    obtain ⟨_, _, _, first, later⟩ := applyOps_cons applied
    rw [flatMap_cons, Keyed.among_append, not_or] at stays
    exact ih later (applyOp_exists keyed first exists' stays.1) stays.2

end

/-- A file that is neither deleted nor moved stays. -/
def Keyed.Stay (cwd : Text) (state : State) (ops : List PatchOp) (after : State) : Prop :=
  ∀ path, system.contents state path ≠ none →
    ¬ keyed.Among cwd path (ops.flatMap PatchOp.removed) → system.contents after path ≠ none

/-- A file that no update and no deletion is about keeps its content. -/
def Keyed.KeepContent (cwd : Text) (state : State) (ops : List PatchOp) (after : State) : Prop :=
  ∀ path, system.contents state path ≠ none →
    ¬ keyed.Among cwd path (ops.flatMap PatchOp.changed) →
      system.contents after path = system.contents state path

/-- The updated content of every move is found at its target when the patch is done. -/
def MovesArrive (system : FileSystem State) (cwd : Text) (state : State) (ops : List PatchOp)
    (after : State) : Prop :=
  ∀ earlier source target hunks later,
    ops = earlier ++ .update source (some target) hunks :: later →
    ∃ middle changes content, system.applyOps cwd state earlier = (middle, .ok changes) ∧
      system.updated cwd middle source hunks = .ok content ∧
      system.contents after (workspacePath cwd target) = some (utf8 content)

section

variable {keyed} {middle : State} {rest : List PatchOp}

theorem Keyed.Spares.head (spares : keyed.Spares cwd state (op :: rest)) (made : Text)
    (isMade : made ∈ op.made) : system.contents state (workspacePath cwd made) = none :=
  spares.fresh [] op rest state [] rfl rfl made isMade

theorem Keyed.Spares.tail (spares : keyed.Spares cwd state (op :: rest))
    (first : system.applyOp cwd state op = (middle, .ok change)) :
    keyed.Spares cwd middle rest where
  fresh := by
    rintro earlier next later before changes rfl applied
    refine spares.fresh (op :: earlier) next later before (change :: changes) rfl ?_
    rw [applyOps, first]
    simp only [applied]
  apart := fun source target hunks listed => spares.apart source target hunks (.tail _ listed)
  settled := by
    rintro earlier source target hunks later rfl
    exact spares.settled (op :: earlier) source target hunks later rfl

/-- A file that no update and no deletion is about is kept, as nothing is written over it. -/
theorem applyOps_keeps (applied : system.applyOps cwd state ops = (after, .ok changes))
    (spares : keyed.Spares cwd state ops) (exists' : system.contents state other ≠ none)
    (unchanged : ¬ keyed.Among cwd other (ops.flatMap PatchOp.changed)) :
    system.contents after other = system.contents state other := by
  induction ops generalizing state changes with
  | nil =>
    cases applied
    rfl
  | cons op rest ih =>
    obtain ⟨middle, _, _, first, later⟩ := applyOps_cons applied
    rw [flatMap_cons, Keyed.among_append, not_or] at unchanged
    have unmade : ¬ keyed.Among cwd other op.made := by
      rintro ⟨made, isMade, same⟩
      exact exists' ((keyed.same state _ _ same).trans (spares.head made isMade))
    have kept := applyOp_others keyed first unchanged.1 unmade
    rw [ih later (spares.tail first) (by rwa [kept]) unchanged.2, kept]

/-- Where no operation touches it, a moved file arrives. -/
theorem applyOps_arrives (applied : system.applyOps cwd state ops = (after, .ok changes))
    (spares : keyed.Spares cwd state ops) : MovesArrive system cwd state ops after := by
  intro earlier source target hunks later split
  induction earlier generalizing state ops changes with
  | nil =>
    cases split
    obtain ⟨next, _, _, moved, rest⟩ := applyOps_cons applied
    have updates : system.applyUpdate cwd state source (some target) hunks = (next, .ok _) := moved
    obtain ⟨content, _, isContent, wrote, removed⟩ := applyUpdate_ok updates
    have arrived : system.contents next (workspacePath cwd target) = some (utf8 content) := by
      rw [(keyed.removeFile _ _ _ removed).2 _ (spares.apart source target hunks (.head _))]
      exact (writeFile_ok keyed wrote).1
    refine ⟨state, [], content, rfl, isContent, ?_⟩
    rw [applyOps_keeps rest (spares.tail moved) (by rw [arrived]; exact Option.some_ne_none _)
      (spares.settled [] source target hunks later rfl), arrived]
  | cons op earlier ih =>
    cases split
    obtain ⟨middle, change, _, first, rest⟩ := applyOps_cons applied
    obtain ⟨before, others, content, ran, isContent, arrived⟩ := ih rest (spares.tail first) rfl
    refine ⟨before, change :: others, content, ?_, isContent, arrived⟩
    rw [applyOps, first]
    simp only [ran]

end

/-- A patch loses no file where it writes over none, and leaves what it has moved. -/
theorem applyOps_loses_nothing (system : FileSystem State) (keyed : system.Keyed Key)
    (cwd : Text) (state after : State) (ops : List PatchOp) (changes : List FileChange)
    (applied : system.applyOps cwd state ops = (after, .ok changes))
    (spares : keyed.Spares cwd state ops) :
    keyed.Stay cwd state ops after ∧ keyed.KeepContent cwd state ops after ∧
      MovesArrive system cwd state ops after :=
  ⟨fun _ exists' stays => applyOps_exists keyed applied exists' stays,
    fun _ exists' unchanged => applyOps_keeps applied spares exists' unchanged,
    applyOps_arrives applied spares⟩

def inMemoryKeyed : inMemory.Keyed Text where
  key := id
  same := by
    rintro files path other rfl
    rfl
  write := by
    rintro files path content after wrote
    cases wrote
    refine ⟨by simp [inMemory, utf8], fun other apart => ?_⟩
    exact congrArg (Option.map _) (Function.update_of_ne apart _ _)
  removeFile := by
    intro files path after removed
    simp only [inMemory] at removed
    split at removed
    · cases removed
      refine ⟨by simp [inMemory], fun other apart => ?_⟩
      exact congrArg (Option.map _) (Function.update_of_ne apart _ _)
    · cases removed

def someFiles (paths : List Text) (path : Text) : Option Text :=
  if path ∈ paths then some (path ++ ['\n']) else none

/-- A file is edited and moved, another is added, and a third is not touched. -/
def movingOps : List PatchOp :=
  [.update ['a'] (some ['b']) [{ old := ['a'], new := ['x'] }], .add ['d'] [['d']]]

theorem movingOps_spares : inMemoryKeyed.Spares [] (someFiles [['a'], ['c']]) movingOps where
  fresh := by
    rintro (_ | ⟨_, _ | ⟨_, _ | ⟨_, _⟩⟩⟩) op later middle changes split applied made isMade
    · cases split
      cases mem_singleton.mp isMade
      cases applied
      rfl
    · cases split
      cases mem_singleton.mp isMade
      cases applied
      rfl
    · cases split
    · cases split
  apart := by
    intro source target hunks listed
    simp only [movingOps, mem_cons, PatchOp.update.injEq, reduceCtorEq, not_mem_nil, or_false]
      at listed
    obtain ⟨rfl, hTarget, -⟩ := listed
    cases hTarget
    decide
  settled := by
    rintro (_ | ⟨_, _ | ⟨_, _ | ⟨_, _⟩⟩⟩) source target hunks later split
    · cases split
      rintro ⟨_, changed, -⟩
      cases changed
    all_goals cases split

theorem applyOps_loses_nothing_move : ∃ after changes,
    inMemory.applyOps [] (someFiles [['a'], ['c']]) movingOps = (after, .ok changes) ∧
      inMemoryKeyed.Stay [] (someFiles [['a'], ['c']]) movingOps after ∧
      inMemoryKeyed.KeepContent [] (someFiles [['a'], ['c']]) movingOps after ∧
      MovesArrive inMemory [] (someFiles [['a'], ['c']]) movingOps after ∧
      after ['b'] = some ['x', '\n'] ∧ after ['c'] = some ['c', '\n'] := by
  obtain ⟨stay, keep, arrive⟩ :=
    applyOps_loses_nothing inMemory inMemoryKeyed [] _ _ movingOps _ rfl movingOps_spares
  exact ⟨_, _, rfl, stay, keep, arrive, rfl, rfl⟩

/-- A move overwrites the file at its target. -/
theorem move_overwrites : ¬ ∀ (State Key : Type) (system : FileSystem State)
    (keyed : system.Keyed Key) (cwd : Text) (state after : State) (ops : List PatchOp)
    (changes : List FileChange), system.applyOps cwd state ops = (after, .ok changes) →
    keyed.Stay cwd state ops after ∧ keyed.KeepContent cwd state ops after ∧
      MovesArrive system cwd state ops after := by
  intro always
  have kept := (always _ _ inMemory inMemoryKeyed [] (someFiles [['a'], ['b']]) _
    [.update ['a'] (some ['b']) []] _ rfl).2.1 ['b'] nofun (by
      rintro ⟨_, changed, same⟩
      cases mem_singleton.mp changed
      cases same)
  exact absurd kept (by decide +kernel)

end FileSystem

end PiRelay.AgentTools
