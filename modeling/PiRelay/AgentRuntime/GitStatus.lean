import Mathlib.Data.List.TakeWhile

/-! What the runtime reads of the output of `git status` and `git diff --name-status`, whose fields
end in a zero byte. -/
namespace PiRelay.AgentRuntime

open List

inductive GitFileStatus where
  | modified
  | added
  | deleted
  | untracked
  | conflict
deriving DecidableEq

abbrev Bytes := List UInt8

/-- The field at the start of the bytes, and the bytes after its end. -/
def readZPath (bytes : Bytes) : Bytes × Bytes :=
  (bytes.takeWhile (· ≠ 0), (bytes.dropWhile (· ≠ 0)).drop 1)

theorem readZPath_length (bytes : Bytes) : (readZPath bytes).2.length ≤ bytes.length := by
  have rest := (dropWhile_suffix (l := bytes) (· ≠ 0)).length_le
  rw [readZPath, length_drop]
  omega

theorem readZPath_lt (byte : UInt8) (rest : Bytes) :
    (readZPath (byte :: rest)).2.length < (byte :: rest).length := by
  have suffix := (dropWhile_suffix (l := byte :: rest) (· ≠ 0)).length_le
  simp only [readZPath, length_drop, length_cons] at suffix ⊢
  omega

theorem readZPath_append {path : Bytes} (noZero : 0 ∉ path) (rest : Bytes) :
    readZPath (path ++ 0 :: rest) = (path, rest) := by
  have kept : ∀ byte ∈ path, decide (byte ≠ 0) := fun byte mem =>
    decide_eq_true fun isZero => noZero (isZero ▸ mem)
  rw [readZPath, takeWhile_append_of_pos kept, dropWhile_append_of_pos kept]
  simp

def isAnyOf (letters : String) (letter : Char) : Bool := letters.toList.contains letter

/-- A source path follows. -/
def isRename (x y : Char) : Bool := isAnyOf "RC" x || isAnyOf "RC" y

def porcelainStatus (x y : Char) : GitFileStatus :=
  if x = '?' ∧ y = '?' then .untracked
  else if (isAnyOf "AUD" x && isAnyOf "AUD" y && x ≠ y)
      || (x = 'U' || y = 'U' || (x = 'A' && y = 'A') || (x = 'D' && y = 'D')) then .conflict
  else if x = 'A' ∨ y = 'A' then .added
  else if x = 'D' ∨ y = 'D' then .deleted
  else if x = '?' ∨ y = '?' then .untracked
  else .modified

/-- The output of `git status --porcelain=v1 -z`. -/
def parsePorcelain : Bytes → List (Bytes × GitFileStatus)
  | first :: second :: blank :: rest =>
    if blank ≠ 32 then
      -- Unexpected; the next record may start after the next zero byte.
      if 0 ∈ first :: second :: blank :: rest then
        parsePorcelain (readZPath (first :: second :: blank :: rest)).2
      else []
    else
      let x := Char.ofNat first.toNat
      let y := Char.ofNat second.toNat
      let path := (readZPath rest).1
      let afterPath := (readZPath rest).2
      let next := if isRename x y then (readZPath afterPath).2 else afterPath
      if path = [] then parsePorcelain next
      else (path, porcelainStatus x y) :: parsePorcelain next
  | _ => []
termination_by bytes => bytes.length
decreasing_by
  · exact readZPath_lt first _
  all_goals
    have path := readZPath_length rest
    have source := readZPath_length (readZPath rest).2
    simp only [length_cons]
    split <;> omega

/-- The output of `git diff --name-status -z`. Only the first character of a status counts. -/
def parseNameStatus (bytes : Bytes) : List (Bytes × GitFileStatus) :=
  match bytes with
  | [] => []
  | byte :: more =>
    let rest := (readZPath (byte :: more)).2
    match (readZPath (byte :: more)).1 with
    | [] => []
    | code :: _ =>
      let code := Char.ofNat code.toNat
      let rename := isAnyOf "RC" code
      let fields := if rename then (readZPath rest).2 else rest
      let path := (readZPath fields).1
      let next := (readZPath fields).2
      let status : GitFileStatus :=
        if rename then .added
        else if code = 'A' then .added
        else if code = 'D' then .deleted
        else if code = 'U' then .conflict
        else .modified
      if path = [] then parseNameStatus next else (path, status) :: parseNameStatus next
termination_by bytes.length
decreasing_by
  all_goals
    refine (readZPath_length _).trans_lt (Nat.lt_of_le_of_lt ?_ (readZPath_lt byte more))
    split
    · exact readZPath_length _
    · exact Nat.le_refl _

abbrev ZPath := { path : Bytes // path ≠ [] ∧ 0 ∉ path }

def ZPath.field (path : ZPath) : Bytes := path.val ++ [0]

/-- The letters of two sides of a merge that git could not join. -/
def unmergedPairs : List (Char × Char) :=
  [('D', 'D'), ('A', 'U'), ('U', 'D'), ('U', 'A'), ('D', 'U'), ('A', 'A'), ('U', 'U')]

/-- The letters that `git status` prints for the index and for the work tree. -/
def statusPairs : List (Char × Char) :=
  "AMTDRC".toList.map (' ', ·)
    ++ "MTARC".toList.flatMap (fun x => " MTD".toList.map (x, ·))
    ++ ('D', ' ') :: unmergedPairs ++ [('?', '?'), ('!', '!')]

structure StatusRecord where
  x : Char
  y : Char
  path : ZPath
  source : Option ZPath
  allowed : (x, y) ∈ statusPairs
  renamed : source.isSome = isRename x y

def StatusRecord.encode (record : StatusRecord) : Bytes :=
  record.x.toUInt8 :: record.y.toUInt8 :: 32
    :: (record.path.field ++ record.source.elim [] ZPath.field)

def ZPath.letter (status : ZPath) : Char := Char.ofNat (status.val.head status.property.1).toNat

structure NameStatusRecord where
  status : ZPath
  path : ZPath
  source : Option ZPath
  renamed : source.isSome = isAnyOf "RC" status.letter

def NameStatusRecord.encode (record : NameStatusRecord) : Bytes :=
  record.status.field ++ record.source.elim [] ZPath.field ++ record.path.field

/-- The paths of the records are read in order, and those that are not merged as conflicts. -/
def ReadsStatus (records : List StatusRecord) : Prop :=
  let parsed := parsePorcelain (records.flatMap StatusRecord.encode)
  parsed.map Prod.fst = records.map (·.path.val) ∧
    parsed.map (·.2 = .conflict) = records.map fun record => (record.x, record.y) ∈ unmergedPairs

def ReadsNames (records : List NameStatusRecord) : Prop :=
  (parseNameStatus (records.flatMap NameStatusRecord.encode)).map Prod.fst
    = records.map (·.path.val)

theorem readZPath_field (path : ZPath) (rest : Bytes) :
    readZPath (path.field ++ rest) = (path.val, rest) := by
  rw [ZPath.field, append_assoc, singleton_append, readZPath_append path.property.2]

theorem parsePorcelain_encode (record : StatusRecord) (rest : Bytes) :
    parsePorcelain (record.encode ++ rest)
      = (record.path.val, porcelainStatus record.x record.y) :: parsePorcelain rest := by
  have letters : ∀ pair ∈ statusPairs, Char.ofNat pair.1.toUInt8.toNat = pair.1 ∧
      Char.ofNat pair.2.toUInt8.toNat = pair.2 := by decide
  obtain ⟨isX, isY⟩ := letters _ record.allowed
  have renamed := record.renamed
  rw [StatusRecord.encode, cons_append, cons_append, cons_append, parsePorcelain]
  simp only [isX, isY, ← renamed]
  cases isSource : record.source with
  | none | some source => simp [readZPath_field, record.path.property.1]

/-- A record reads back, and the rest is read behind it. -/
theorem parseNameStatus_encode (record : NameStatusRecord) (rest : Bytes) :
    ∃ status, parseNameStatus (record.encode ++ rest)
      = (record.path.val, status) :: parseNameStatus rest := by
  have renamed := record.renamed
  obtain ⟨code, more, isStatus⟩ := exists_cons_of_ne_nil record.status.property.1
  have letter : record.status.letter = Char.ofNat code.toNat := by simp [ZPath.letter, isStatus]
  have isField : record.encode ++ rest = record.status.field ++
      (record.source.elim [] ZPath.field ++ record.path.field ++ rest) := by
    simp [NameStatusRecord.encode]
  have token := readZPath_field record.status
    (record.source.elim [] ZPath.field ++ record.path.field ++ rest)
  rw [isField]
  rw [ZPath.field, isStatus, cons_append, cons_append] at token ⊢
  rw [parseNameStatus, token]
  simp only [← letter, ← renamed]
  cases isSource : record.source with
  | none | some source => simp [readZPath_field, record.path.property.1]

theorem parsePorcelain_flatMap (records : List StatusRecord) :
    parsePorcelain (records.flatMap StatusRecord.encode)
      = records.map fun record => (record.path.val, porcelainStatus record.x record.y) := by
  induction records with
  | nil => simp [parsePorcelain]
  | cons record _ ih => rw [flatMap_cons, parsePorcelain_encode, ih, map_cons]

theorem readsNames (records : List NameStatusRecord) : ReadsNames records := by
  rw [ReadsNames]
  induction records with
  | nil => rw [flatMap_nil, parseNameStatus]; rfl
  | cons record _ ih =>
    obtain ⟨_, parsed⟩ := parseNameStatus_encode record _
    rw [flatMap_cons, parsed, map_cons, ih, map_cons]

/-- A file that was added to the index and is gone. -/
def addedThenDeleted : StatusRecord where
  x := 'A'
  y := 'D'
  path := ⟨[102], by decide⟩
  source := none
  allowed := by decide
  renamed := rfl

end PiRelay.AgentRuntime
