import Mathlib.Data.List.Basic

/-! Freeform patches and how they are parsed. A string is the list of its characters. -/
namespace PiRelay.AgentTools

open List

abbrev Text := List Char

structure LineHunk where
  old : Text
  new : Text
deriving DecidableEq

inductive PatchOp where
  | add (path : Text) (lines : List Text)
  | delete (path : Text)
  | update (path : Text) (moveTo : Option Text) (hunks : List LineHunk)
deriving DecidableEq

def beginPatch : Text := "*** Begin Patch".toList
def endPatch : Text := "*** End Patch".toList
def addFile : Text := "*** Add File: ".toList
def deleteFile : Text := "*** Delete File: ".toList
def updateFile : Text := "*** Update File: ".toList
def moveToHeader : Text := "*** Move to: ".toList
def endOfFile : Text := "*** End of File".toList

def isPatchBoundary (line : Text) : Bool :=
  line = endPatch || addFile.isPrefixOf line || deleteFile.isPrefixOf line ||
    updateFile.isPrefixOf line

def showText (before : String) (text : Text) : String := before ++ String.ofList text

/-- The contents of a file to add, each line after its `+`. -/
def addLine (line : Text) : Except String Text :=
  match line with
  | '+' :: content => .ok content
  | _ => .error (showText "add file line must start with +: " line)

/-- The hunks of an update so far, and the lines of the last one. -/
structure HunkLines where
  hunks : List LineHunk := []
  old : Text := []
  new : Text := []

def pushHunk (lines : HunkLines) : HunkLines :=
  if lines.old = [] ∧ lines.new = [] then lines
  else { hunks := lines.hunks ++ [{ old := lines.old, new := lines.new }] }

def updateLine (lines : HunkLines) (line : Text) : Except String HunkLines :=
  if line = ['@', '@'] ∨ ['@', '@', ' '].isPrefixOf line then .ok (pushHunk lines)
  else if line = endOfFile then .ok lines
  else
    match line with
    | [] => .error "empty update line"
    | ' ' :: content =>
      .ok { lines with
        old := lines.old ++ content ++ ['\n']
        new := lines.new ++ content ++ ['\n'] }
    | '-' :: content => .ok { lines with old := lines.old ++ content ++ ['\n'] }
    | '+' :: content => .ok { lines with new := lines.new ++ content ++ ['\n'] }
    | _ => .error (showText "invalid update line: " line)

def splitMoveTo (lines : List Text) : Option Text × List Text :=
  match lines with
  | [] => (none, [])
  | line :: rest =>
    match line.dropPrefix? moveToHeader with
    | some target => (some target, rest)
    | none => (none, line :: rest)

def parseAdd (path : Text) (body : List Text) : Except String PatchOp := do
  let lines ← body.mapM addLine
  if lines.isEmpty then .error (showText "add file has no content: " path)
  else .ok (.add path lines)

def parseUpdate (path : Text) (moveTo : Option Text) (body : List Text) :
    Except String PatchOp := do
  let lines ← body.foldlM updateLine {}
  let hunks := (pushHunk lines).hunks
  if hunks.isEmpty && moveTo.isNone then .error (showText "update file has no changes: " path)
  else .ok (.update path moveTo hunks)

theorem splitMoveTo_length (lines : List Text) : (splitMoveTo lines).2.length ≤ lines.length := by
  cases lines with
  | nil => exact Nat.le_refl _
  | cons =>
    rw [splitMoveTo]
    split
    · exact Nat.le_succ _
    · exact Nat.le_refl _

theorem length_dropWhile_le {α : Type} (test : α → Bool) (list : List α) :
    (list.dropWhile test).length ≤ list.length :=
  (dropWhile_sublist test).length_le

/-- The lines up to the next header or the end of the patch belong to the same file. -/
def parseOps (lines : List Text) : Except String (List PatchOp) :=
  match lines with
  | [] => .error "patch must end with *** End Patch"
  | line :: rest =>
    if line = endPatch then
      if rest = [] then .ok [] else .error "unexpected content after *** End Patch"
    else
      match line.dropPrefix? addFile, line.dropPrefix? deleteFile,
        line.dropPrefix? updateFile with
      | some path, _, _ => do
        let op ← parseAdd path (rest.takeWhile (!isPatchBoundary ·))
        let ops ← parseOps (rest.dropWhile (!isPatchBoundary ·))
        .ok (op :: ops)
      | none, some path, _ => do
        let ops ← parseOps rest
        .ok (.delete path :: ops)
      | none, none, some path => do
        let moved := splitMoveTo rest
        let op ← parseUpdate path moved.1 (moved.2.takeWhile (!isPatchBoundary ·))
        let ops ← parseOps (moved.2.dropWhile (!isPatchBoundary ·))
        .ok (op :: ops)
      | none, none, none => .error (showText "unknown patch line: " line)
termination_by lines.length
decreasing_by
  · have shorter := length_dropWhile_le (!isPatchBoundary ·) rest
    rw [length_cons]
    omega
  · simp
  · have shorter := length_dropWhile_le (!isPatchBoundary ·) (splitMoveTo rest).2
    have noLonger := splitMoveTo_length rest
    rw [length_cons]
    omega

/-- A last empty line is the end of the line before it. -/
def patchLines (input : Text) : List Text :=
  let lines := input.splitOn '\n'
  if lines.getLast? = some [] then lines.dropLast else lines

def parsePatch (input : Text) : Except String (List PatchOp) :=
  match patchLines input with
  | line :: rest =>
    if line = beginPatch then parseOps rest
    else .error "patch must start with *** Begin Patch"
  | [] => .error "patch must start with *** Begin Patch"

end PiRelay.AgentTools
