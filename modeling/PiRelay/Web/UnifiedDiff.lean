import Mathlib.Data.List.Infix

/-! The rows that the browser shows for the unified diff of a file. It tells headers from the
lines of a hunk by how a line starts. -/
namespace PiRelay.Web

open List

inductive UnifiedDiffRowKind where
  | add
  | remove
  | context
  | hunk
  | metadata
deriving DecidableEq

structure UnifiedDiffRow where
  kind : UnifiedDiffRowKind
  text : List Char
deriving DecidableEq

def diffRow (line : List Char) : UnifiedDiffRow :=
  let startsWith (start : String) := start.toList.isPrefixOf line
  if startsWith "diff --git " || startsWith "index " || startsWith "+++ " || startsWith "--- " then
    ⟨.metadata, line⟩
  else if startsWith "@@" then ⟨.hunk, line⟩
  else if startsWith "+" then ⟨.add, line.drop 1⟩
  else if startsWith "-" then ⟨.remove, line.drop 1⟩
  else if startsWith "\\" then ⟨.metadata, line⟩
  else ⟨.context, if startsWith " " then line.drop 1 else line⟩

def parseUnifiedDiff (unified : List Char) : List UnifiedDiffRow :=
  match (unified.splitOn '\n').map diffRow with
  | [⟨_, []⟩] => []
  | rows => rows

abbrev OneLine := { line : List Char // '\n' ∉ line }

inductive BodyKind where
  | add
  | remove
  | context
deriving DecidableEq

def BodyKind.marker : BodyKind → Char
  | add => '+'
  | remove => '-'
  | context => ' '

def BodyKind.row : BodyKind → UnifiedDiffRowKind
  | add => .add
  | remove => .remove
  | context => .context

/-- A line of one of the two files, or of both. The last line of a file may have no end. -/
structure BodyLine where
  kind : BodyKind
  text : OneLine
  unended : Bool

structure Hunk where
  oldStart : Nat
  newStart : Nat
  heading : OneLine
  body : List BodyLine

structure FileDiff where
  headers : List OneLine
  hunks : List Hunk

namespace Hunk

variable (hunk : Hunk)

def range (start count : Nat) : List Char :=
  if count = 1 then Nat.toDigits 10 start
  else Nat.toDigits 10 start ++ ',' :: Nat.toDigits 10 count

theorem range_oneLine (start count : Nat) : '\n' ∉ range start count := by
  have digits : ∀ number, '\n' ∉ Nat.toDigits 10 number := by
    intro number mem
    exact absurd (Nat.isDigit_of_mem_toDigits (by decide) (by decide) mem) (by decide)
  rw [range]
  split <;> simp [digits]

/-- The line before a hunk announces how many lines of each file are in it. -/
def header : OneLine where
  val := "@@ -".toList ++ range hunk.oldStart (hunk.body.countP (·.kind ≠ .add)) ++ " +".toList
    ++ range hunk.newStart (hunk.body.countP (·.kind ≠ .remove)) ++ " @@".toList ++ hunk.heading
  property := by simp [range_oneLine, hunk.heading.property]

end Hunk

def BodyLine.raw (line : BodyLine) : OneLine where
  val := line.kind.marker :: line.text
  property := by cases line.kind <;> simp [BodyKind.marker, line.text.property]

def BodyLine.row (line : BodyLine) : UnifiedDiffRow := ⟨line.kind.row, line.text.val⟩

inductive DiffLine where
  | other (line : OneLine)
  | body (line : BodyLine)

def DiffLine.raw : DiffLine → OneLine
  | other line => line
  | body line => line.raw

def DiffLine.body? : DiffLine → Option BodyLine
  | other _ => none
  | body line => some line

def BodyLine.lines (line : BodyLine) : List DiffLine :=
  .body line
    :: if line.unended then [.other ⟨"\\ No newline at end of file".toList, by decide⟩] else []

def Hunk.lines (hunk : Hunk) : List DiffLine :=
  .other hunk.header :: hunk.body.flatMap BodyLine.lines

namespace FileDiff

variable (diff : FileDiff)

def lines : List DiffLine := diff.headers.map .other ++ diff.hunks.flatMap Hunk.lines

def text : List Char := diff.lines.flatMap fun line => line.raw.val ++ ['\n']

def body : List BodyLine := diff.lines.filterMap DiffLine.body?

def bodyRows (rows : List UnifiedDiffRow) : List UnifiedDiffRow :=
  (diff.lines.zip rows).filterMap fun (line, row) => line.body?.map fun _ => row

/-- Each line of a hunk has its row, in order, of its kind and without its marker. -/
def ShowsBody : Prop := diff.bodyRows (parseUnifiedDiff diff.text) = diff.body.map BodyLine.row

end FileDiff

/-- With its marker the line starts as the headers of the two files do. -/
def BodyLine.looksLikeHeader (line : BodyLine) : Prop :=
  (line.kind = .add ∧ "++ ".toList <+: line.text.val)
    ∨ (line.kind = .remove ∧ "-- ".toList <+: line.text.val)

theorem diffRow_raw (line : BodyLine) : diffRow line.raw = line.row ↔ ¬ line.looksLikeHeader := by
  obtain ⟨kind, _, _⟩ := line
  cases kind <;> simp [diffRow, BodyLine.raw, BodyLine.row, BodyKind.marker, BodyKind.row,
      BodyLine.looksLikeHeader]

theorem splitOn_lines (lines : List DiffLine) :
    (lines.flatMap fun line => line.raw.val ++ ['\n']).splitOn '\n'
      = lines.map (·.raw.val) ++ [[]] := by
  induction lines with
  | nil => rfl
  | cons line later ih =>
    rw [flatMap_cons, append_assoc, singleton_append,
      splitOn_append_cons_self_of_not_mem line.raw.property, ih]
    rfl

theorem filterMap_zip (lines : List DiffLine) (last : List UnifiedDiffRow) :
    (lines.zip (lines.map (diffRow ·.raw) ++ last)).filterMap
        (fun (line, row) => line.body?.map fun _ => row)
      = (lines.filterMap DiffLine.body?).map (diffRow ·.raw) := by
  induction lines with
  | nil => rfl
  | cons line later ih =>
    cases line with
    | other => exact ih
    | body line => exact congrArg (diffRow line.raw :: ·) ih

theorem parseUnifiedDiff_eq {unified : List Char} (long : 1 < (unified.splitOn '\n').length) :
    parseUnifiedDiff unified = (unified.splitOn '\n').map diffRow := by
  rw [parseUnifiedDiff]
  split
  · rename_i single
    have length := congrArg List.length single
    simp at length
    omega
  · rfl

/-- The only line of a file, which reads as two dashes, a blank and a letter, is removed. -/
def removedComment : FileDiff where
  headers := [⟨"diff --git a/f b/f".toList, by decide⟩,
    ⟨"index 8c1384d..e69de29 100644".toList, by decide⟩, ⟨"--- a/f".toList, by decide⟩,
    ⟨"+++ b/f".toList, by decide⟩]
  hunks := [{
    oldStart := 1
    newStart := 0
    heading := ⟨[], not_mem_nil⟩
    body := [⟨.remove, ⟨"-- x".toList, by decide⟩, false⟩] }]

end PiRelay.Web
