import Mathlib.Data.Prod.Lex
import Mathlib.Data.String.Basic

/-! Paths, and what the operating system finds under them. A tree has directories, files and
symbolic links; `locate` is the file that a path stands for, whether it is there or not. -/
namespace PiRelay.AgentTools

/-- A component of a path, but for the drive letters of other systems. -/
inductive Component where
  | rootDir
  | curDir
  | parentDir
  | normal (name : String)
deriving DecidableEq

abbrev PathBuf := List Component

/-- Components in the order that the standard library gives them. -/
def Component.rank : Component → ℕ ×ₗ String
  | .rootDir => toLex (1, "")
  | .curDir => toLex (2, "")
  | .parentDir => toLex (3, "")
  | .normal name => toLex (4, name)

theorem Component.rank_injective : Function.Injective Component.rank := by
  intro one other same
  cases one <;> cases other <;> simp_all [Component.rank]

instance : LinearOrder Component := LinearOrder.lift' Component.rank Component.rank_injective

def pushComponent (out : PathBuf) : Component → PathBuf
  | .rootDir => [.rootDir]
  | .curDir => out
  | .parentDir => if out = [.rootDir] then out else out.dropLast
  | .normal name => out ++ [.normal name]

def normalizePath (path : PathBuf) : PathBuf :=
  let out := path.foldl pushComponent []
  if out = [] then [.curDir] else out

/-- The names on the way from the root. -/
abbrev Location := List String

inductive Node where
  | dir
  | file
  | symlink (target : PathBuf)
deriving DecidableEq

structure FileTree where
  nodes : Location → Option Node
  workingDir : Location

/-- How far a walk comes before the next symbolic link. -/
inductive Walked where
  | found (location : Location)
  | link (base : Location) (path : PathBuf)
  | failed

/-- As many symbolic links are followed on one path. -/
def maxLinks : Nat := 40

def absolute (location : Location) : PathBuf := .rootDir :: location.map .normal

namespace FileTree

variable (tree : FileTree)

def isDir (location : Location) : Bool := tree.nodes location == some .dir

def isLink (location : Location) : Bool :=
  match tree.nodes location with
  | some (.symlink _) => true
  | _ => false

/-- The walk up to the next link. A strict walk goes through directories only, to something
that is there. -/
def walk (strict : Bool) : Location → PathBuf → Walked
  | location, [] => if strict && (tree.nodes location).isNone then .failed else .found location
  | _, .rootDir :: rest => walk strict [] rest
  | location, .curDir :: rest =>
    if strict && !tree.isDir location then .failed else walk strict location rest
  | location, .parentDir :: rest =>
    if strict && !tree.isDir location then .failed else walk strict location.dropLast rest
  | location, .normal name :: rest =>
    if strict && !tree.isDir location then .failed
    else match tree.nodes (location ++ [name]) with
      | some (.symlink target) => .link location (target ++ rest)
      | _ => walk strict (location ++ [name]) rest

def follow (strict : Bool) : Nat → Location → PathBuf → Option Location
  | links, location, path =>
    match tree.walk strict location path with
    | .found target => some target
    | .failed => none
    | .link base rest =>
      match links with
      | 0 => none
      | links + 1 => follow strict links base rest

/-- The real path of what is there (`std::fs::canonicalize`). -/
def canonicalize (path : PathBuf) : Option PathBuf :=
  (tree.follow true maxLinks tree.workingDir path).map absolute

/-- The file that a path stands for, whether it is there or is yet to be made. -/
def locate (path : PathBuf) : Option Location :=
  tree.follow false maxLinks tree.workingDir path

/-- The entry that a removal of the path removes: a link at the end is not followed. -/
def entryOf (path : PathBuf) : Option Location :=
  match path.getLast? with
  | some (.normal name) => (tree.locate path.dropLast).map (· ++ [name])
  | _ => none

def withFile (location : Location) : FileTree :=
  { tree with
    nodes := fun other =>
      if other = location then some .file
      else if other <+: location && (tree.nodes other).isNone then some .dir
      else tree.nodes other }

def without (location : Location) : FileTree :=
  { tree with nodes := fun other => if other = location then none else tree.nodes other }

/-- A file can be written here: no directory or link is, and directories lead to it. -/
def writable (location : Location) : Bool :=
  (tree.nodes location == none || tree.nodes location == some .file) &&
    location.dropLast.inits.all fun above => tree.nodes above == none || tree.isDir above

end FileTree

open FileTree Option

variable {tree : FileTree}
variable {location : Location} {path : PathBuf} {one other : FileTree}

theorem FileTree.walk_of_strict {walked : Walked} (isWalk : tree.walk true location path = walked)
    (arrives : walked ≠ .failed) : tree.walk false location path = walked := by
  induction path generalizing location with
  | nil =>
    rw [walk] at isWalk ⊢
    split at isWalk
    · exact absurd isWalk.symm arrives
    · exact isWalk
  | cons component _ ih =>
    cases component with
    | rootDir => exact ih isWalk
    | curDir | parentDir =>
      rw [walk] at isWalk ⊢
      split at isWalk
      · exact absurd isWalk.symm arrives
      · exact ih isWalk
    | normal =>
      rw [walk] at isWalk ⊢
      split at isWalk
      · exact absurd isWalk.symm arrives
      · rw [if_neg (by simp)]
        split at isWalk
        · exact isWalk
        · exact ih isWalk

theorem FileTree.follow_of_strict {links : Nat} {target : Location}
    (arrives : tree.follow true links location path = some target) :
    tree.follow false links location path = some target := by
  induction links generalizing location path with
  | zero =>
    rw [follow] at arrives ⊢
    split at arrives
    · rename_i isWalk
      rw [walk_of_strict isWalk Walked.noConfusion]
      exact arrives
    · cases arrives
    · cases arrives
  | succ _ ih =>
    rw [follow] at arrives ⊢
    split at arrives
    · rename_i isWalk
      rw [walk_of_strict isWalk Walked.noConfusion]
      exact arrives
    · cases arrives
    · rename_i isWalk
      rw [walk_of_strict isWalk Walked.noConfusion]
      exact ih arrives

theorem FileTree.locate_of_canonicalize {real : PathBuf}
    (isReal : tree.canonicalize path = some real) :
    ∃ location, tree.locate path = some location ∧ real = absolute location := by
  obtain ⟨location, arrives, rfl⟩ := map_eq_some_iff.mp isReal
  exact ⟨location, follow_of_strict arrives, rfl⟩

/-- The trees have the same symbolic links, and paths begin in the same directory. -/
structure FileTree.SameLinks (one other : FileTree) : Prop where
  workingDir : one.workingDir = other.workingDir
  links : ∀ location target,
    one.nodes location = some (.symlink target) ↔ other.nodes location = some (.symlink target)

section

variable (same : one.SameLinks other)
include same

theorem FileTree.SameLinks.walk (location : Location) (path : PathBuf) :
    one.walk false location path = other.walk false location path := by
  induction path generalizing location with
  | nil => rfl
  | cons component _ ih =>
    cases component with
    | rootDir => exact ih []
    | curDir => exact ih location
    | parentDir => exact ih location.dropLast
    | normal name =>
      rw [FileTree.walk, FileTree.walk, if_neg (by simp), if_neg (by simp)]
      split
      · rename_i target isLink
        rw [(same.links (location ++ [name]) target).mp isLink]
      · rename_i noLink
        split
        · rename_i target isLink
          exact absurd ((same.links (location ++ [name]) target).mpr isLink) (noLink target)
        · exact ih (location ++ [name])

theorem FileTree.SameLinks.follow (links : Nat) (location : Location) (path : PathBuf) :
    one.follow false links location path = other.follow false links location path := by
  induction links generalizing location path with
  | zero => rw [FileTree.follow, FileTree.follow, same.walk]
  | succ _ ih =>
    rw [FileTree.follow, FileTree.follow, same.walk]
    split
    · rfl
    · rfl
    · exact ih _ _

theorem FileTree.SameLinks.locate (path : PathBuf) : one.locate path = other.locate path := by
  rw [FileTree.locate, FileTree.locate, same.workingDir, same.follow]

end

theorem FileTree.withFile_sameLinks (writable : tree.writable location) :
    (tree.withFile location).SameLinks tree where
  workingDir := rfl
  links := by
    intro other target
    have noLink : tree.nodes location ≠ some (.symlink target) := by
      intro isLink
      simp [FileTree.writable, isLink] at writable
    rw [withFile]
    dsimp only
    split
    · rename_i isLocation
      subst isLocation
      simp [noLink]
    · split
      · rename_i missing
        rw [Bool.and_eq_true, isNone_iff_eq_none] at missing
        simp [missing.2]
      · rfl

theorem FileTree.without_sameLinks (isNoLink : tree.isLink location = false) :
    (tree.without location).SameLinks tree where
  workingDir := rfl
  links := by
    intro other target
    have noLink : tree.nodes location ≠ some (.symlink target) := by
      intro isLink
      simp [FileTree.isLink, isLink] at isNoLink
    rw [without]
    dsimp only
    split
    · rename_i isLocation
      subst isLocation
      simp [noLink]
    · rfl

/-- The real path of the file if it is there, else the lexical form of the path. -/
def FileTree.mutationLockKey (tree : FileTree) (path : PathBuf) : PathBuf :=
  (tree.canonicalize (normalizePath path)).getD (normalizePath path)

/-- The lexical form stands for the same file as the path, and is its real path as long as
the file is not there. -/
def FileTree.Settled (tree : FileTree) (path : PathBuf) : Prop :=
  ∀ file ∈ tree.locate path, tree.locate (normalizePath path) = some file ∧
    (tree.canonicalize (normalizePath path) = none → normalizePath path = absolute file)

instance (path : PathBuf) : Decidable (tree.Settled path) :=
  inferInstanceAs (Decidable (∀ file ∈ tree.locate path, _))

theorem FileTree.Settled.mutationLockKey (settled : tree.Settled path) {file : Location}
    (isFile : tree.locate path = some file) : tree.mutationLockKey path = absolute file := by
  obtain ⟨sameFile, isReal⟩ := settled file isFile
  rw [FileTree.mutationLockKey]
  cases isThere : tree.canonicalize (normalizePath path) with
  | none => exact isReal isThere
  | some =>
    obtain ⟨_, found, rfl⟩ := FileTree.locate_of_canonicalize isThere
    rw [sameFile] at found
    rw [Option.some.inj found]
    rfl

end PiRelay.AgentTools
