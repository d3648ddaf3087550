import Mathlib.Data.List.SplitBy
import Mathlib.Data.String.Basic
import PiRelay.Library.Fallible
import PiRelay.Library.Ordered

/-! What a runtime watches for the file browsers of a workspace (`workspaces/watch.rs`). -/
namespace PiRelay.AgentRuntime

open Library List

def isControl (char : Char) : Bool :=
  char.toNat < 0x20 || (0x7f ≤ char.toNat && char.toNat < 0xa0)

def pathPieces (path : String) : List (List Char) := path.toList.splitOn '/'

/-- A path below the working directory. Empty pieces and single dots are no components, but
for a dot at the beginning. -/
def validateBrowsePath (path : String) : Except String String :=
  let chars := path.toList
  let pieces := pathPieces path
  let parts := pieces.filter fun piece => !piece.isEmpty && piece != ['.']
  if path = "" then .ok ""
  else if chars.contains (Char.ofNat 0) then .error "path contains NUL"
  else if chars.head? = some '/' ∨ chars.head? = some '\\' then .error "path must be relative"
  else if chars.any fun char => isControl char || char == '\\' then
    .error "path contains illegal characters"
  else if pieces.head? = some ['.'] ∨ parts.contains ['.', '.'] ∨ parts.isEmpty then
    .error "path must be relative and normal"
  else if pieces.tail.contains [] then .error "path must be relative and normal"
  else .ok ("/".intercalate (parts.map String.ofList))

structure BrowseInterest where
  directories : SortedSet String
  files : SortedSet String
deriving DecidableEq

def BrowseInterest.isEmpty (interest : BrowseInterest) : Bool :=
  interest.directories.keys.isEmpty && interest.files.keys.isEmpty

def normalizeFile (path : String) : Except String String := do
  let normalized ← validateBrowsePath path
  if normalized = "" then .error "watched file path must not be empty" else .ok normalized

def normalizeInterest (directories files : List String) : Except String BrowseInterest := do
  let directories ← directories.mapM validateBrowsePath
  let files ← files.mapM normalizeFile
  .ok ⟨.collect directories, .collect files⟩

/-- The interests that are installed, by workspace. -/
abbrev BrowseWatchHub := String → Option BrowseInterest

/-- `watching` is what the watcher of the file system says to the directories to watch. Where
a workspace has an interest already, the new one is put down before the watcher is asked. -/
def setInterest (hub : BrowseWatchHub) (workspaceId : String) (directories files : List String)
    (watching : Except String Unit) : BrowseWatchHub × Except String Unit :=
  match normalizeInterest directories files with
  | .error error => (hub, .error error)
  | .ok interest =>
    if interest.isEmpty then (Function.update hub workspaceId none, .ok ())
    else if (hub workspaceId).isSome then
      (Function.update hub workspaceId (some interest), watching)
    else
      match watching with
      | .ok _ => (Function.update hub workspaceId (some interest), .ok ())
      | .error error => (hub, .error error)

def BrowseInterest.installed (interest : BrowseInterest) : Option BrowseInterest :=
  if interest.isEmpty then none else some interest

variable {hub : BrowseWatchHub} {workspaceId : String} {directories files : List String}
  {watching : Except String Unit}

theorem setInterest_other {other : String} (different : other ≠ workspaceId) :
    (setInterest hub workspaceId directories files watching).1 other = hub other := by
  rw [setInterest]
  split
  · rfl
  · split
    · exact Function.update_of_ne different ..
    · split
      · exact Function.update_of_ne different ..
      · split
        · exact Function.update_of_ne different ..
        · rfl

theorem setInterest_ok
    (isOk : (setInterest hub workspaceId directories files watching).2 = .ok ()) :
    ∃ interest, normalizeInterest directories files = .ok interest ∧
      (setInterest hub workspaceId directories files watching).1 workspaceId
        = interest.installed := by
  rw [setInterest] at isOk ⊢
  split at isOk
  · cases isOk
  · rename_i interest isInterest
    refine ⟨interest, isInterest, ?_⟩
    rw [BrowseInterest.installed]
    split at isOk
    · rename_i empty
      simp [empty]
    · rename_i nonempty
      split at isOk
      · rename_i known
        simp [nonempty, known]
      · rename_i unknown
        split at isOk
        · simp [nonempty, unknown]
        · cases isOk

/-- The path is in the form that the runtime gives it. -/
def NormalPath (path : String) : Prop :=
  ∀ normal, validateBrowsePath path = .ok normal → normal = path

instance (path : String) : Decidable (NormalPath path) :=
  decidable_of_iff (∀ normal ∈ (validateBrowsePath path).toOption, normal = path) (by
    rw [NormalPath]
    cases validateBrowsePath path <;> simp [Except.toOption])

theorem mapM_of_normal {check : String → Except String String} {paths normals : List String}
    (normal : ∀ path ∈ paths, ∀ result, check path = .ok result → result = path)
    (isOk : paths.mapM check = .ok normals) : normals = paths := by
  induction paths generalizing normals with
  | nil => exact (Except.ok.inj isOk).symm
  | cons path _ ih =>
    rw [mapM_cons] at isOk
    obtain ⟨result, isResult, isOk⟩ := bind_eq_ok.mp isOk
    obtain ⟨_, areResults, isOk⟩ := bind_eq_ok.mp isOk
    cases isOk
    rw [normal path mem_cons_self result isResult, ih (forall_mem_cons.mp normal).2 areResults]

theorem normalizeInterest_of_normal {interest normalized : BrowseInterest}
    (normal : ∀ path ∈ interest.directories.keys ++ interest.files.keys, NormalPath path)
    (isOk : normalizeInterest interest.directories.keys interest.files.keys = .ok normalized) :
    normalized = interest := by
  obtain ⟨_, areDirectories, isOk⟩ := bind_eq_ok.mp isOk
  obtain ⟨_, areFiles, isOk⟩ := bind_eq_ok.mp isOk
  cases isOk
  have sameDirectories := mapM_of_normal (forall_mem_append.mp normal).1 areDirectories
  have normalFile : ∀ path ∈ interest.files.keys, ∀ result, normalizeFile path = .ok result →
      result = path := by
    intro path mem result isResult
    obtain ⟨normalized, isNormalized, isResult⟩ := bind_eq_ok.mp isResult
    split at isResult
    · cases isResult
    · cases isResult
      exact normal path (mem_append_right _ mem) _ isNormalized
  rw [sameDirectories, mapM_of_normal normalFile areFiles, SortedSet.collect_keys,
    SortedSet.collect_keys]

end PiRelay.AgentRuntime
