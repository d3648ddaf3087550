import PiRelay.AgentTools.Patch

/-! Applying a patch to the files of a workspace, one operation after another. The file
system is any one whose failed operations have no effect. -/
namespace PiRelay.AgentTools

structure FileChange where
  marker : String
  path : Text

/-- A relative path starts at the working directory of the session. -/
def workspacePath (cwd path : Text) : Text :=
  if path.head? = some '/' then path
  else if cwd = [] ∨ cwd.getLast? = some '/' then cwd ++ path
  else cwd ++ '/' :: path

def linesToText (lines : List Text) : Text := ['\n'].intercalate lines ++ ['\n']

def replaceFirst (old new : Text) : Text → Option Text
  | [] => if old = [] then some new else none
  | char :: rest =>
    if old.isPrefixOf (char :: rest) then some (new ++ (char :: rest).drop old.length)
    else (replaceFirst old new rest).map (char :: ·)

def applyHunk (path : Text) (content : Text) (hunk : LineHunk) : Except String Text :=
  if hunk.old = [] then
    .error (String.ofList path ++ ": update hunk has no context or removed lines")
  else
    match replaceFirst hunk.old hunk.new content with
    | some content => .ok content
    | none => .error (String.ofList path ++ ": update hunk did not match file contents")

/-- What the tool calls of the file system. A call that fails has no effect. Making the
directories above a path changes no file. -/
structure FileSystem (State : Type) where
  contents : State → Text → Option (List UInt8)
  pathExists : State → Text → Bool
  readToString : State → Text → Except String Text
  createParent : State → Text → Except String State
  write : State → Text → Text → Except String State
  removeFile : State → Text → Except String State
  createParent_contents : ∀ state path after, createParent state path = .ok after →
    contents after = contents state

def withPath {α : Type} (path : Text) (result : Except String α) : Except String α :=
  result.mapError fun error => String.ofList path ++ ": " ++ error

namespace FileSystem

variable {State : Type} (system : FileSystem State) (cwd : Text)

variable (state : State)

def writeFile (path content : Text) : State × Except String Unit :=
  match system.createParent state path with
  | .error error => (state, .error error)
  | .ok state =>
    match system.write state path content with
    | .error error => (state, .error error)
    | .ok after => (after, .ok ())

def applyAdd (path : Text) (lines : List Text) : State × Except String FileChange :=
  let fullPath := workspacePath cwd path
  if system.pathExists state fullPath then
    (state, .error (showText "file already exists: " path))
  else
    match system.writeFile state fullPath (linesToText lines) with
    | (after, result) => (after, (withPath path result).map fun _ => { marker := "A", path })

def applyDelete (path : Text) : State × Except String FileChange :=
  match withPath path (system.removeFile state (workspacePath cwd path)) with
  | .error error => (state, .error error)
  | .ok after => (after, .ok { marker := "D", path })

/-- The contents of a file after the hunks, each applied to what the one before it left. -/
def updated (path : Text) (hunks : List LineHunk) : Except String Text := do
  let content ← withPath path (system.readToString state (workspacePath cwd path))
  hunks.foldlM (applyHunk path) content

def applyUpdate (path : Text) (moveTo : Option Text) (hunks : List LineHunk) :
    State × Except String FileChange :=
  match system.updated cwd state path hunks with
  | .error error => (state, .error error)
  | .ok content =>
    match moveTo with
    | some target =>
      match system.writeFile state (workspacePath cwd target) content with
      | (written, .error error) => (written, withPath target (.error error))
      | (written, .ok ()) =>
        match withPath path (system.removeFile written (workspacePath cwd path)) with
        | .error error => (written, .error error)
        | .ok after => (after, .ok { marker := "R", path := path ++ " -> ".toList ++ target })
    | none =>
      match system.writeFile state (workspacePath cwd path) content with
      | (after, result) => (after, (withPath path result).map fun _ => { marker := "M", path })

def applyOp : PatchOp → State × Except String FileChange
  | .add path lines => system.applyAdd cwd state path lines
  | .delete path => system.applyDelete cwd state path
  | .update path moveTo hunks => system.applyUpdate cwd state path moveTo hunks

def applyOps (state : State) : List PatchOp → State × Except String (List FileChange)
  | [] => (state, .ok [])
  | op :: rest =>
    match system.applyOp cwd state op with
    | (after, .error error) => (after, .error error)
    | (after, .ok change) =>
      match applyOps after rest with
      | (last, .error error) => (last, .error error)
      | (last, .ok changes) => (last, .ok (change :: changes))

variable {system cwd} {state after : State} {path content : Text} {error : String}

theorem writeFile_error (failed : system.writeFile state path content = (after, .error error)) :
    system.contents after = system.contents state := by
  rw [writeFile] at failed
  split at failed
  · cases failed
    rfl
  · rename_i made hMade
    split at failed
    · cases failed
      exact system.createParent_contents _ _ _ hMade
    · cases failed

/-- The target of a move is written, and its source cannot be removed. -/
def CopyLeft (system : FileSystem State) (cwd : Text) (before : State) (op : PatchOp)
    (after : State) : Prop :=
  ∃ path target hunks content, op = .update path (some target) hunks ∧
    system.updated cwd before path hunks = .ok content ∧
    system.writeFile before (workspacePath cwd target) content = (after, .ok ()) ∧
    ∃ error, system.removeFile after (workspacePath cwd path) = .error error

theorem withPath_eq_error {α : Type} {result : Except String α}
    (failed : withPath path result = .error error) : ∃ cause, result = .error cause := by
  cases result with
  | error cause => exact ⟨cause, rfl⟩
  | ok => cases failed

theorem applyAdd_error {lines : List Text}
    (failed : system.applyAdd cwd state path lines = (after, .error error)) :
    system.contents after = system.contents state := by
  rw [applyAdd] at failed
  split at failed
  · cases failed
    rfl
  · split at failed
    rename_i written result wrote
    cases result with
    | error =>
      cases failed
      exact writeFile_error wrote
    | ok => cases failed

theorem applyDelete_error
    (failed : system.applyDelete cwd state path = (after, .error error)) :
    system.contents after = system.contents state := by
  rw [applyDelete] at failed
  split at failed
  · cases failed
    rfl
  · cases failed

/-- A failed update changes nothing, or it leaves a copy behind. -/
theorem applyUpdate_error {moveTo : Option Text} {hunks : List LineHunk}
    (failed : system.applyUpdate cwd state path moveTo hunks = (after, .error error)) :
    system.contents after = system.contents state ∨
      CopyLeft system cwd state (.update path moveTo hunks) after := by
  rw [applyUpdate] at failed
  split at failed
  · cases failed
    exact .inl rfl
  · rename_i content hContent
    split at failed
    · rename_i target
      split at failed
      · rename_i written cause wrote
        cases failed
        exact .inl (writeFile_error wrote)
      · rename_i written wrote
        split at failed
        · rename_i cause hRemove
          cases failed
          exact .inr ⟨path, target, hunks, content, rfl, hContent, wrote, withPath_eq_error hRemove⟩
        · cases failed
    · split at failed
      rename_i written result wrote
      cases result with
      | error =>
        cases failed
        exact .inl (writeFile_error wrote)
      | ok => cases failed

theorem withPath_eq_ok {α : Type} {result : Except String α} {value : α}
    (passed : withPath path result = .ok value) : result = .ok value := by
  cases result with
  | error => cases passed
  | ok => exact passed

theorem applyUpdate_ok {moveTo : Option Text} {hunks : List LineHunk} {change : FileChange}
    (applied : system.applyUpdate cwd state path moveTo hunks = (after, .ok change)) :
    ∃ content written, system.updated cwd state path hunks = .ok content ∧
      system.writeFile state (workspacePath cwd (moveTo.getD path)) content = (written, .ok ()) ∧
      if moveTo.isSome then system.removeFile written (workspacePath cwd path) = .ok after
      else after = written := by
  rw [applyUpdate] at applied
  split at applied
  · cases applied
  · rename_i content isContent
    split at applied
    · split at applied
      · cases applied
      · rename_i written wrote
        split at applied
        · cases applied
        · rename_i removed
          cases applied
          exact ⟨content, written, isContent, wrote, withPath_eq_ok removed⟩
    · split at applied
      rename_i written result wrote
      cases result with
      | error => cases applied
      | ok =>
        cases applied
        exact ⟨content, _, isContent, wrote, rfl⟩

theorem applyOp_error {op : PatchOp}
    (failed : system.applyOp cwd state op = (after, .error error)) :
    system.contents after = system.contents state ∨ CopyLeft system cwd state op after := by
  cases op with
  | add => exact .inl (applyAdd_error failed)
  | delete => exact .inl (applyDelete_error failed)
  | update => exact applyUpdate_error failed

/-- The operations before the one that fails are applied, and stay applied. -/
theorem applyOps_error {ops : List PatchOp}
    (failed : system.applyOps cwd state ops = (after, .error error)) :
    ∃ applied op rest before changes, ops = applied ++ op :: rest ∧
      system.applyOps cwd state applied = (before, .ok changes) ∧
      system.applyOp cwd before op = (after, .error error) ∧
      (system.contents after = system.contents before ∨ CopyLeft system cwd before op after) := by
  induction ops generalizing state with
  | nil => cases failed
  | cons op rest ih =>
    rw [applyOps] at failed
    split at failed
    · rename_i last cause hOp
      obtain ⟨rfl, same⟩ := Prod.mk.inj failed
      cases same
      exact ⟨[], op, rest, state, [], rfl, rfl, hOp, applyOp_error hOp⟩
    · rename_i middle change hOp
      split at failed
      · rename_i last cause hRest
        obtain ⟨rfl, same⟩ := Prod.mk.inj failed
        cases same
        obtain ⟨applied, failing, later, before, changes, rfl, hApplied, hFailing, leaves⟩ :=
          ih hRest
        refine ⟨op :: applied, failing, later, before, change :: changes, rfl, ?_, hFailing, leaves⟩
        rw [applyOps, hOp]
        simp only [hApplied]
      · cases failed

/-- Text files in the memory of the machine, where nothing else can fail. -/
def inMemory : FileSystem (Text → Option Text) where
  contents files path := (files path).map fun text => (String.ofList text).toUTF8.toList
  pathExists files path := (files path).isSome
  readToString files path :=
    match files path with
    | some text => .ok text
    | none => .error "No such file or directory (os error 2)"
  createParent files _ := .ok files
  write files path text := .ok (Function.update files path (some text))
  removeFile files path :=
    match files path with
    | some _ => .ok (Function.update files path none)
    | none => .error "No such file or directory (os error 2)"
  createParent_contents files path after made := by
    cases made
    rfl

def partialPatch : Text :=
  "*** Begin Patch\n*** Add File: a\n+alpha\n*** Delete File: b\n*** End Patch\n".toList

def partialOps : List PatchOp := [.add ['a'] ["alpha".toList], .delete ['b']]

theorem partialPatch_parsed : parsePatch partialPatch = .ok partialOps := by decide +kernel

/-- The deletion of a missing file fails in an empty workspace, after a file was added. -/
theorem applyOps_error_partial : ∃ after : Text → Option Text,
    inMemory.applyOps [] (fun _ => none) partialOps =
        (after, .error "b: No such file or directory (os error 2)") ∧
      after ['a'] = some "alpha\n".toList ∧
      ∃ applied op rest before changes, partialOps = applied ++ op :: rest ∧
        inMemory.applyOps [] (fun _ => none) applied = (before, .ok changes) ∧
        inMemory.applyOp [] before op =
          (after, .error "b: No such file or directory (os error 2)") ∧
        (inMemory.contents after = inMemory.contents before ∨
          CopyLeft inMemory [] before op after) :=
  ⟨_, rfl, rfl, applyOps_error rfl⟩

/-- The file that is added stays when the deletion after it fails. -/
theorem partial_patch_stays : ¬ ∀ (State : Type) (system : FileSystem State) (cwd input : Text)
    (ops : List PatchOp) (state after : State) (error : String),
    parsePatch input = .ok ops → system.applyOps cwd state ops = (after, .error error) →
      system.contents after = system.contents state := by
  intro atomic
  have failed : inMemory.applyOps [] (fun _ => none) partialOps =
        (Function.update (fun _ => none) ['a'] (some "alpha\n".toList),
          .error "b: No such file or directory (os error 2)") := rfl
  have same := congrFun (atomic _ inMemory [] _ _ _ _ _ partialPatch_parsed failed) ['a']
  cases same

end FileSystem

end PiRelay.AgentTools
