import PiRelay.AgentTools.PatchHunks

/-! The insert command of the text editor. It takes the file apart into lines and writes them back
with the new one among them. -/
namespace PiRelay.AgentTools

open List

inductive ToolError where
  | invalidInput (message : String)
  | io (error : String)
deriving DecidableEq

/-- The lines of a text, each with its end. -/
def splitInclusive : Text → List Text
  | [] => []
  | '\n' :: rest => ['\n'] :: splitInclusive rest
  | char :: rest =>
    match splitInclusive rest with
    | [] => [[char]]
    | line :: later => (char :: line) :: later

/-- A line ends with a line feed, which may follow a carriage return. -/
def stripLineEnd (line : Text) : Text :=
  if line.getLast? = some '\n' then
    let line := line.dropLast
    if line.getLast? = some '\r' then line.dropLast else line
  else line

def textLines (text : Text) : List Text := (splitInclusive text).map stripLineEnd

def insertLine (original : Text) (insertLine : Nat) (newStr : Text) : Text :=
  let lines := textLines original
  let index := min insertLine lines.length
  linesToText (lines.take index ++ [newStr] ++ lines.drop index)

section

variable {State : Type} (system : FileSystem State) (state : State) (path : Text)

/-- What becomes of the text that is written. -/
def writeEdited (text : Text) (output : String) : State × Except ToolError String :=
  match system.write state path text with
  | .error error => (state, .error (.io error))
  | .ok state => (state, .ok output)

def executeInsert (line : Option Nat) (newStr : Option Text) : State × Except ToolError String :=
  match line with
  | none => (state, .error (.invalidInput "insert requires insert_line"))
  | some line =>
    match newStr with
    | none => (state, .error (.invalidInput "insert requires new_str"))
    | some newStr =>
      match system.readToString state path with
      | .error error => (state, .error (.io error))
      | .ok original =>
        writeEdited system state path (insertLine original line newStr) "inserted"

end

/-- The line end without which the text after this one would go on with its last line. -/
def lineBreak (text : Text) : Text :=
  if text = [] ∨ text.getLast? = some '\n' then [] else ['\n']

theorem lineBreak_eq_nil_iff {text : Text} : lineBreak text = [] ↔ AtLineStart text := by
  by_cases empty : text = [] <;> simp [lineBreak, AtLineStart, empty]

theorem lineBreak_line (body text : Text) :
    lineBreak (body ++ ['\n'] ++ text) = lineBreak text := by
  cases text with
  | nil => simp [lineBreak]
  | cons => simp [lineBreak, getLast?_append]

/-- The original text up to the start of the line, the new line, and the rest of the original. -/
def withLine (original : Text) (line : Nat) (newStr : Text) : Text :=
  let before := ((splitInclusive original).take line).flatten
  before ++ lineBreak before ++ newStr ++ ['\n'] ++ ((splitInclusive original).drop line).flatten

/-- Whatever file holds the text, the command does to it what writing the text with the new line in
its place does. -/
def InsertsInPlace (original : Text) (line : Nat) (newStr : Text) : Prop :=
  ∀ {State : Type} (system : FileSystem State) (state : State) (path : Text),
    system.readToString state path = .ok original →
      executeInsert system state path (some line) (some newStr)
        = writeEdited system state path (withLine original line newStr) "inserted"

/-- Lines: all but the last end with a line feed, and there is no other in them. -/
inductive Lines : List Text → Prop where
  | none : Lines []
  | last {body : Text} (isLine : '\n' ∉ body) (notEmpty : body ≠ []) : Lines [body]
  | next {body : Text} {later : List Text} (isLine : '\n' ∉ body) (lines : Lines later) :
      Lines ((body ++ ['\n']) :: later)

namespace Lines

variable {lines : List Text}

theorem drop (isLines : Lines lines) (count : Nat) : Lines (lines.drop count) := by
  induction isLines generalizing count with
  | none => simpa using none
  | last isLine notEmpty =>
    cases count with
    | zero => exact last isLine notEmpty
    | succ _ => simpa using none
  | next isLine isLines ih =>
    cases count with
    | zero => exact next isLine isLines
    | succ count => exact ih count

theorem take (isLines : Lines lines) (count : Nat) : Lines (lines.take count) := by
  induction isLines generalizing count with
  | none => simpa using none
  | last isLine notEmpty =>
    cases count with
    | zero => exact none
    | succ _ => simpa using last isLine notEmpty
  | next isLine isLines ih =>
    cases count with
    | zero => exact none
    | succ count => exact next isLine (ih count)

theorem flatten_eq_nil (isLines : Lines lines) (empty : lines.flatten = []) : lines = [] := by
  cases isLines with
  | none => rfl
  | last _ notEmpty => exact absurd (by simpa using empty) notEmpty
  | next => simp at empty

end Lines

theorem splitInclusive_lines (text : Text) : Lines (splitInclusive text) := by
  fun_induction splitInclusive text with
  | case1 => exact .none
  | case2 rest ih => exact @Lines.next [] _ not_mem_nil ih
  | case3 char rest notEnd isNil ih => exact .last (by simpa using Ne.symm notEnd) (by simp)
  | case4 char rest notEnd line later isCons ih =>
    have apart : '\n' ≠ char := fun same => notEnd same.symm
    rw [isCons] at ih
    cases ih with
    | last isLine => exact .last (by simp [apart, isLine]) (by simp)
    | @next body later isLine lines =>
      exact @Lines.next (char :: body) later (by simp [apart, isLine]) lines

theorem flatten_splitInclusive (text : Text) : (splitInclusive text).flatten = text := by
  fun_induction splitInclusive text with
  | case1 => rfl
  | case2 rest ih => rw [flatten_cons, ih, singleton_append]
  | case3 char rest _ isNil ih => rw [← ih, isNil]; rfl
  | case4 char rest _ line later isCons ih => rw [← ih, isCons]; rfl

def rewritten (lines : List Text) : Text := lines.flatMap fun line => stripLineEnd line ++ ['\n']

theorem linesToText_eq {lines : List Text} (notEmpty : lines ≠ []) :
    linesToText lines = lines.flatMap (· ++ ['\n']) := by
  induction lines with
  | nil => exact absurd rfl notEmpty
  | cons line later ih =>
    cases later with
    | nil => simp [linesToText]
    | cons =>
      rw [flatMap_cons, ← ih (cons_ne_nil _ _)]
      simp [linesToText]

theorem insertLine_eq (original newStr : Text) (line : Nat) :
    insertLine original line newStr
      = rewritten ((splitInclusive original).take line) ++ newStr ++ ['\n']
        ++ rewritten ((splitInclusive original).drop line) := by
  have taken : (textLines original).take (min line (textLines original).length)
      = (textLines original).take line := take_eq_take_min.symm
  have dropped : (textLines original).drop (min line (textLines original).length)
      = (textLines original).drop line := by
    rcases Nat.le_total line (textLines original).length with inside | beyond
    · rw [Nat.min_eq_left inside]
    · rw [Nat.min_eq_right beyond, drop_length, drop_eq_nil_of_le beyond]
  simp only [insertLine, taken, dropped]
  rw [linesToText_eq (by simp)]
  simp [rewritten, textLines, flatMap_map, ← map_take, ← map_drop]

theorem crlf_iff {line : Text} : ['\r', '\n'] <:+ line ↔
    line.getLast? = some '\n' ∧ line.dropLast.getLast? = some '\r' := by
  constructor
  · rintro ⟨body, rfl⟩
    simp
  · rintro ⟨feed, carriage⟩
    refine ⟨line.dropLast.dropLast, ?_⟩
    conv_rhs =>
      rw [← dropLast_append_getLast? _ feed, ← dropLast_append_getLast? _ carriage]
    simp

theorem count_stripLineEnd (line : Text) :
    (stripLineEnd line).count '\r' + (if ['\r', '\n'] <:+ line then 1 else 0)
      = line.count '\r' := by
  rw [stripLineEnd]
  by_cases feed : line.getLast? = some '\n'
  · have count : line.dropLast.count '\r' = line.count '\r' := by
      conv_rhs => rw [← dropLast_append_getLast? _ feed]
      simp
    by_cases carriage : line.dropLast.getLast? = some '\r'
    · have fewer : line.dropLast.dropLast.count '\r' + 1 = line.dropLast.count '\r' := by
        conv_rhs => rw [← dropLast_append_getLast? _ carriage]
        simp
      simp [crlf_iff, feed, carriage, fewer, count]
    · simp [crlf_iff, feed, carriage, count]
  · simp [crlf_iff, feed]

/-- The carriage returns that are lost are those of the line ends. -/
theorem count_rewritten (lines : List Text) :
    (rewritten lines).count '\r' + lines.countP (['\r', '\n'] <:+ ·)
      = lines.flatten.count '\r' := by
  induction lines with
  | nil => rfl
  | cons line later ih =>
    have here := count_stripLineEnd line
    rw [rewritten] at ih
    simp only [rewritten, flatMap_cons, flatten_cons, count_append, countP_cons, decide_eq_true_eq]
    have none : ['\n'].count '\r' = 0 := by decide
    omega

theorem rewritten_eq {lines : List Text} (isLines : Lines lines)
    (unix : ∀ line ∈ lines, ¬ ['\r', '\n'] <:+ line) :
    rewritten lines = lines.flatten ++ lineBreak lines.flatten := by
  induction isLines with
  | none => rfl
  | @last body isLine notEmpty =>
    have unended : body.getLast? ≠ some '\n' := fun ends => isLine (mem_of_getLast? ends)
    simp [rewritten, stripLineEnd, lineBreak, unended, notEmpty]
  | @next body later isLine lines ih =>
    obtain ⟨here, rest⟩ := forall_mem_cons.mp unix
    have kept : body.getLast? ≠ some '\r' := fun ends => here (crlf_iff.mpr (by simpa using ends))
    have whole : stripLineEnd (body ++ ['\n']) = body := by simp [stripLineEnd, kept]
    rw [rewritten, flatMap_cons, whole, ← rewritten, ih rest, flatten_cons, lineBreak_line]
    simp only [append_assoc]

/-- An insertion leaves the rest as it is where no line ends in a CRLF and no ending is added. -/
theorem insertLine_eq_iff {original newStr : Text} {line : Nat} :
    insertLine original line newStr = withLine original line newStr ↔
      (∀ line ∈ splitInclusive original, ¬ ['\r', '\n'] <:+ line) ∧
        (AtLineStart original ∨ (textLines original).length ≤ line) := by
  have isLines := splitInclusive_lines original
  have parts := take_append_drop line (splitInclusive original)
  have whole := congrArg List.flatten parts
  rw [flatten_splitInclusive, flatten_append] at whole
  have rest : lineBreak ((splitInclusive original).drop line).flatten = [] ↔
      AtLineStart original ∨ (textLines original).length ≤ line := by
    rw [lineBreak_eq_nil_iff, textLines, length_map, ← drop_eq_nil_iff]
    constructor
    · rintro (empty | ends)
      · exact .inr ((isLines.drop line).flatten_eq_nil empty)
      · exact .inl (.inr (by rw [← whole, getLast?_append, ends]; rfl))
    · rintro ((rfl | ends) | beyond)
      · exact .inl (by rw [splitInclusive, drop_nil]; rfl)
      · cases isRest : ((splitInclusive original).drop line).flatten with
        | nil => exact .inl rfl
        | cons =>
          rw [← whole, isRest] at ends
          exact .inr (by simpa [getLast?_append] using ends)
      · exact .inl (by rw [beyond]; rfl)
  rw [insertLine_eq, withLine, ← rest]
  constructor
  · intro same
    have counts := congrArg (List.count '\r') same
    have unbroken : ∀ text, (lineBreak text).count '\r' = 0 := by
      intro text
      rw [lineBreak]
      split <;> rfl
    simp only [count_append, unbroken, ← count_rewritten] at counts
    have noneBefore : ((splitInclusive original).take line).countP (['\r', '\n'] <:+ ·) = 0 := by
      omega
    have noneAfter : ((splitInclusive original).drop line).countP (['\r', '\n'] <:+ ·) = 0 := by
      omega
    have unixBefore := by simpa using countP_eq_zero.mp noneBefore
    have unixAfter := by simpa using countP_eq_zero.mp noneAfter
    rw [rewritten_eq (isLines.take line) unixBefore,
      rewritten_eq (isLines.drop line) unixAfter] at same
    constructor
    · rw [← parts]
      exact forall_mem_append.mpr ⟨unixBefore, unixAfter⟩
    · exact append_right_eq_self.mp (append_cancel_left same)
  · rintro ⟨unix, ends⟩
    rw [rewritten_eq (isLines.take line) fun line inside => unix line (mem_of_mem_take inside),
      rewritten_eq (isLines.drop line) fun line inside => unix line (mem_of_mem_drop inside),
      ends, append_nil]

/-- The new line is all that changes just when no line of the file ends in a carriage return and a
line feed, and the last one ends in a line feed or is before the new one. -/
theorem inserts_in_place_iff (original newStr : Text) (line : Nat) :
    InsertsInPlace original line newStr ↔
      (∀ line ∈ splitInclusive original, ¬ ['\r', '\n'] <:+ line) ∧
        (AtLineStart original ∨ (textLines original).length ≤ line) := by
  rw [← @insertLine_eq_iff original newStr line]
  constructor
  · intro inPlace
    have written := inPlace FileSystem.inMemory (fun _ => some original) [] rfl
    exact Option.some.inj (congrFun (congrArg Prod.fst written) [])
  · intro same State system state path read
    simp only [executeInsert, read, same]

theorem inserts_in_place_windows :
    ¬ ∀ (original newStr : Text) (line : Nat), InsertsInPlace original line newStr := by
  intro inPlace
  have written := inPlace ['a', '\r', '\n', 'b', '\n'] ['x'] 1 FileSystem.inMemory
    (fun _ => some ['a', '\r', '\n', 'b', '\n']) [] rfl
  exact absurd (congrFun (congrArg Prod.fst written) []) (by decide)

end PiRelay.AgentTools
