import PiRelay.AgentTools.FileTree
import PiRelay.Library.Machine

/-! The tree of a workspace that was copied to a session. Links that may lead out of it are
replaced, one look at the text of each, and no path below the root leads out of what is left. -/
namespace PiRelay.AgentRuntime

open AgentTools (Component PathBuf Location)
open Library List Option

/-- The components of a path. Empty pieces are none, and a single dot is one only at the
beginning. -/
def components (path : List Char) : PathBuf :=
  let pieces := path.splitOn '/'
  let parts := (pieces.filter fun piece => piece ≠ [] ∧ piece ≠ ['.']).map fun piece =>
    if piece = ['.', '.'] then .parentDir else .normal (String.ofList piece)
  if path.head? = some '/' then .rootDir :: parts
  else if pieces.head? = some ['.'] then .curDir :: parts
  else parts

inductive CopiedNode where
  | file (contents : List Char)
  | dir (entries : List (String × CopiedNode))
  | symlink (target : List Char)
  /-- A pipe, a socket or a device. -/
  | special

def staysBelow : Component → Bool
  | .normal _ | .curDir => true
  | .rootDir | .parentDir => false

def isSafeRelativeSymlink (target : List Char) : Bool :=
  target.head? ≠ some '/' && (components target).all staysBelow

def skippedSymlinkMarker (target : List Char) : List Char :=
  "pi-relay local workspace copy skipped external symlink target: ".toList ++ target ++ ['\n']

inductive SanitizeCall where
  | readDir (location : Location)
  | readLink (location : Location)
  | removeFile (location : Location)
  | writeMarker (location : Location)

mutual

def sanitizeNode (fails : SanitizeCall → Bool) (location : Location) :
    CopiedNode → Option (Option CopiedNode)
  | .dir entries =>
    if fails (.readDir location) then none
    else (sanitizeEntries fails location entries).map fun left => some (.dir left)
  | .symlink target =>
    if fails (.readLink location) then none
    else if isSafeRelativeSymlink target then some (some (.symlink target))
    else if fails (.removeFile location) || fails (.writeMarker location) then none
    else some (some (.file (skippedSymlinkMarker target)))
  | .file contents => some (some (.file contents))
  | .special => if fails (.removeFile location) then none else some none

def sanitizeEntries (fails : SanitizeCall → Bool) (location : Location) :
    List (String × CopiedNode) → Option (List (String × CopiedNode))
  | [] => some []
  | (name, node) :: rest => do
    let left ← sanitizeNode fails (location ++ [name]) node
    let rest ← sanitizeEntries fails location rest
    some (left.toList.map (name, ·) ++ rest)

end

def sanitizeCopiedTree (fails : SanitizeCall → Bool) (location : Location)
    (entries : List (String × CopiedNode)) : Option (List (String × CopiedNode)) :=
  if fails (.readDir location) then none else sanitizeEntries fails location entries

/-- What is at a location below a directory. -/
def nodeAt : List (String × CopiedNode) → Location → Option CopiedNode
  | entries, [] => some (.dir entries)
  | entries, name :: rest =>
    match entries.lookup name with
    | some (.dir entries) => nodeAt entries rest
    | found => if rest = [] then found else none

/-- Where a resolution is, which is nowhere below the root once it has left it, and the components
that it has yet to go. -/
abbrev Resolution := Option Location × PathBuf

def resolveNext (entries : List (String × CopiedNode)) : Resolution → Option Resolution
  | (some here, component :: rest) =>
    match component with
    | .rootDir => some (none, rest)
    | .curDir => some (some here, rest)
    | .parentDir => some (if here = [] then none else some here.dropLast, rest)
    | .normal name =>
      match nodeAt entries (here ++ [name]) with
      | none => none
      | some (.dir _) => some (some (here ++ [name]), rest)
      | some (.symlink target) => some (some here, components target ++ rest)
      | some _ => if rest = [] then some (some (here ++ [name]), []) else none
  | _ => none

/-- The resolutions of the paths of names from the root of the tree. -/
def resolutions (entries : List (String × CopiedNode)) : Machine Resolution Unit :=
  .ofSteps
    (fun state => state.1 = some [] ∧ ∀ component ∈ state.2, ∃ name, component = .normal name)
    fun state _ => resolveNext entries state

/-- Links that stay below are left as they are, and so are files and directories. -/
def KeptAs (left : Option CopiedNode) : CopiedNode → Prop
  | .dir _ => ∃ entries, left = some (.dir entries)
  | .file contents => left = some (.file contents)
  | .symlink target => isSafeRelativeSymlink target = true → left = some (.symlink target)
  | .special => True

variable {fails : SanitizeCall → Bool} {location : Location}
  {entries clean : List (String × CopiedNode)}

variable {node : CopiedNode}

theorem sanitizeEntries_cons {name : String} :
    sanitizeEntries fails location ((name, node) :: entries) = some clean ↔
      ∃ left, sanitizeNode fails (location ++ [name]) node = some left ∧
        ∃ others, sanitizeEntries fails location entries = some others ∧
          left.toList.map (name, ·) ++ others = clean := by
  simp [sanitizeEntries, bind_eq_some_iff]

section

variable (sanitized : sanitizeEntries fails location entries = some clean)
include sanitized

/-- What is left under a name comes from something that was there. -/
theorem sanitized_lookup {name : String} {left : CopiedNode}
    (found : clean.lookup name = some left) :
    ∃ node, sanitizeNode fails (location ++ [name]) node = some (some left) := by
  induction entries generalizing clean with
  | nil =>
    cases sanitized
    cases found
  | cons entry rest ih =>
    obtain ⟨entryName, node⟩ := entry
    obtain ⟨kept, isKept, others, isRest, rfl⟩ := sanitizeEntries_cons.mp sanitized
    cases kept with
    | none => exact ih isRest found
    | some kept =>
      by_cases same : name = entryName
      · subst same
        have first : some kept = some left := by simpa using found
        exact ⟨node, first ▸ isKept⟩
      · have apart := beq_eq_false_iff_ne.mpr same
        exact ih isRest (by simpa [lookup_cons, apart] using found)

/-- What was there under a name is sanitized, and left there unless it goes. -/
theorem lookup_sanitized {name : String} (found : entries.lookup name = some node) :
    ∃ left, sanitizeNode fails (location ++ [name]) node = some left ∧
      ∀ kept, left = some kept → clean.lookup name = some kept := by
  induction entries generalizing clean with
  | nil => cases found
  | cons entry rest ih =>
    obtain ⟨entryName, first⟩ := entry
    obtain ⟨left, isLeft, others, isRest, rfl⟩ := sanitizeEntries_cons.mp sanitized
    by_cases same : name = entryName
    · subst same
      have isFirst : first = node := by simpa using found
      refine ⟨left, isFirst ▸ isLeft, ?_⟩
      rintro kept rfl
      simp
    · have apart := beq_eq_false_iff_ne.mpr same
      obtain ⟨found, isFound, stays⟩ := ih isRest (by simpa [lookup_cons, apart] using found)
      refine ⟨found, isFound, fun kept isKept => ?_⟩
      cases left <;> simpa [lookup_cons, apart] using stays kept isKept

end

variable {left : Option CopiedNode}

theorem sanitizeNode_dir (sanitized : sanitizeNode fails location (.dir entries) = some left) :
    ∃ others, left = some (.dir others) ∧ sanitizeEntries fails location entries = some others := by
  rw [sanitizeNode] at sanitized
  split at sanitized
  · cases sanitized
  · obtain ⟨others, isOthers, rfl⟩ := map_eq_some_iff.mp sanitized
    exact ⟨others, rfl, isOthers⟩

/-- A node that is left is a directory that was one, a link that stays below, or a file. -/
theorem sanitizeNode_left {node left : CopiedNode}
    (sanitized : sanitizeNode fails location node = some (some left)) :
    (∃ entries others, left = .dir others ∧ sanitizeEntries fails location entries = some others) ∨
      (∃ target, left = .symlink target ∧ isSafeRelativeSymlink target) ∨
        ∃ contents, left = .file contents := by
  cases node with
  | dir entries =>
    obtain ⟨others, isLeft, isOthers⟩ := sanitizeNode_dir sanitized
    exact .inl ⟨entries, others, Option.some.inj isLeft, isOthers⟩
  | symlink target =>
    rw [sanitizeNode] at sanitized
    split at sanitized
    · cases sanitized
    · split at sanitized
      · rename_i safe
        cases sanitized
        exact .inr (.inl ⟨target, rfl, safe⟩)
      · split at sanitized <;> cases sanitized
        exact .inr (.inr ⟨_, rfl⟩)
  | file contents =>
    cases sanitized
    exact .inr (.inr ⟨contents, rfl⟩)
  | special =>
    rw [sanitizeNode] at sanitized
    split at sanitized <;> cases sanitized

/-- No link of the tree that is left leads up or to the root. -/
theorem links_safe {path : Location} {target : List Char}
    (sanitized : sanitizeEntries fails location entries = some clean)
    (isLink : nodeAt clean path = some (.symlink target)) : isSafeRelativeSymlink target := by
  induction path generalizing location entries clean with
  | nil => cases isLink
  | cons name rest ih =>
    rw [nodeAt] at isLink
    split at isLink
    · rename_i found
      obtain ⟨_, isNode⟩ := sanitized_lookup sanitized found
      obtain ⟨_, _, isDir, below⟩ | ⟨_, isOther, _⟩ | ⟨_, isOther⟩ := sanitizeNode_left isNode
      · cases isDir
        exact ih below isLink
      · cases isOther
      · cases isOther
    · split at isLink
      · obtain ⟨_, isNode⟩ := sanitized_lookup sanitized isLink
        obtain ⟨_, _, isOther, _⟩ | ⟨_, isLink, safe⟩ | ⟨_, isOther⟩ := sanitizeNode_left isNode
        · cases isOther
        · cases isLink
          exact safe
        · cases isOther
      · cases isLink

theorem kept_of_sanitizeNode
    (sanitized : sanitizeNode fails location node = some left) : KeptAs left node := by
  cases node with
  | dir =>
    obtain ⟨others, rfl, -⟩ := sanitizeNode_dir sanitized
    exact ⟨others, rfl⟩
  | symlink target =>
    intro safe
    rw [sanitizeNode] at sanitized
    split at sanitized
    · cases sanitized
    · exact (Option.some.inj sanitized).symm
  | file => exact (Option.some.inj sanitized).symm
  | special => trivial

theorem KeptAs.of_none (kept : KeptAs none node) : KeptAs left node := by
  cases node with
  | dir =>
    obtain ⟨_, none⟩ := kept
    cases none
  | symlink => exact fun safe => nomatch kept safe
  | file => cases kept
  | special => trivial

theorem nodeAt_singleton (name : String) : nodeAt entries [name] = entries.lookup name := by
  rw [nodeAt]
  split
  · rename_i found
    rw [found, nodeAt]
  · rfl

theorem nodes_kept {path : Location}
    (sanitized : sanitizeEntries fails location entries = some clean)
    (isNode : nodeAt entries path = some node) : KeptAs (nodeAt clean path) node := by
  induction path generalizing location entries clean with
  | nil =>
    cases isNode
    exact ⟨clean, rfl⟩
  | cons name rest ih =>
    rw [nodeAt] at isNode
    split at isNode
    · rename_i found
      obtain ⟨_, isDir, stays⟩ := lookup_sanitized sanitized found
      obtain ⟨others, rfl, below⟩ := sanitizeNode_dir isDir
      rw [nodeAt, stays _ rfl]
      exact ih below isNode
    · split at isNode
      · rename_i last
        obtain ⟨left, isLeft, stays⟩ := lookup_sanitized sanitized isNode
        have kept := kept_of_sanitizeNode isLeft
        rw [last, nodeAt_singleton]
        cases left with
        | none => exact kept.of_none
        | some => exact stays _ rfl ▸ kept
      · cases isNode

/-- A resolution that is in the tree, with components left that do not lead up or to the root. -/
def Confined (state : Resolution) : Prop := state.1.isSome ∧ state.2.all staysBelow = true

/-- A step of a resolution stays within the tree. -/
theorem Confined.next {state after : Resolution} (confined : Confined state)
    (safe : ∀ path target, nodeAt clean path = some (.symlink target) →
      isSafeRelativeSymlink target)
    (next : resolveNext clean state = some after) : Confined after := by
  obtain ⟨here, path⟩ := state
  cases here with
  | none => cases confined.1
  | some here =>
    cases path with
    | nil => cases next
    | cons component rest =>
      obtain ⟨first, below⟩ := (Bool.and_eq_true _ _).mp confined.2
      cases component with
      | rootDir | parentDir => cases first
      | curDir =>
        cases next
        exact ⟨rfl, below⟩
      | normal name =>
        simp only [resolveNext] at next
        split at next
        · cases next
        · cases next
          exact ⟨rfl, below⟩
        · rename_i target isLink
          cases next
          have inside := ((Bool.and_eq_true _ _).mp (safe _ _ isLink)).2
          exact ⟨rfl, by rw [all_append, inside, below]; rfl⟩
        · split at next <;> cases next
          exact ⟨rfl, rfl⟩

/-- No resolution from the root of the sanitized tree leaves it, and what stays below is kept. -/
theorem sanitized_tree_confined
    (sanitized : sanitizeCopiedTree fails location entries = some clean) :
    (∀ state, (resolutions clean).Reaches state → state.1.isSome) ∧
      ∀ path node, nodeAt entries path = some node → KeptAs (nodeAt clean path) node := by
  rw [sanitizeCopiedTree] at sanitized
  split at sanitized
  · cases sanitized
  · constructor
    · intro state reaches
      refine (reaches.invariant (motive := Confined) ?_ ?_).1
      · rintro _ ⟨isRoot, names⟩
        refine ⟨by rw [isRoot]; rfl, all_eq_true.mpr fun component mem => ?_⟩
        obtain ⟨_, rfl⟩ := names component mem
        rfl
      · exact fun _ _ _ _ confined next => confined.next (fun _ _ => links_safe sanitized) next
    · exact fun _ _ => nodes_kept sanitized

/-- A link to a directory, and in the directory one that leads out of the tree. -/
def linkedTree : List (String × CopiedNode) :=
  [("a", .dir [("up", .symlink "../..".toList)]), ("b", .symlink "a".toList)]

theorem sanitized_tree_confined_linked : ∃ clean,
    sanitizeCopiedTree (fun _ => false) [] linkedTree = some clean ∧
      (∀ state, (resolutions clean).Reaches state → state.1.isSome) ∧
        ∀ path node, nodeAt linkedTree path = some node → KeptAs (nodeAt clean path) node := by
  have sanitized : sanitizeCopiedTree (fun _ => false) [] linkedTree = some _ := rfl
  exact ⟨_, sanitized, sanitized_tree_confined sanitized⟩

end PiRelay.AgentRuntime
