import Mathlib.Data.List.Infix
import PiRelay.AgentRuntime.BrowseWatchHub

/-! The paths that the browser and the runtime browse (`filePath.ts`, `workspaces/fs.rs`). The
browser takes raw pieces and the runtime takes components, and the two read a single dot and
the upper control characters differently. -/
namespace PiRelay.Web

open List Option
open AgentRuntime (isControl pathPieces)

variable (path : String)

def validateBrowsePath : Option String :=
  let chars := path.toList
  let parts := chars.splitOn '/'
  if path = "" then some ""
  else if chars.contains (Char.ofNat 0) || chars.contains '\\' then none
  else if chars.head? = some '/' then none
  else if ['/', '/'] <:+: chars ∨ chars.getLast? = some '/' then none
  else if chars.any fun char => decide (char < ' ') || char == Char.ofNat 0x7f then none
  else if parts.isEmpty || parts.any fun part =>
      part.isEmpty || part == ['.'] || part == ['.', '.'] then
    none
  else some ("/".intercalate (parts.map String.ofList))

/-- The root, or components that go down, without control characters and backslashes. -/
def WellFormed : Prop :=
  path = "" ∨
    (∀ piece ∈ pathPieces path, piece ≠ [] ∧ piece ≠ ['.'] ∧ piece ≠ ['.', '.']) ∧
      ∀ char ∈ path.toList, isControl char = false ∧ char ≠ '\\'

/-- A single dot is a component behind the first one of a path that has no other fault. -/
def DotInside : Prop :=
  path ≠ "" ∧ (∀ char ∈ path.toList, isControl char = false ∧ char ≠ '\\') ∧
    (∀ piece ∈ pathPieces path, piece ≠ [] ∧ piece ≠ ['.', '.']) ∧
      (pathPieces path).head? ≠ some ['.'] ∧ ['.'] ∈ pathPieces path

/-- The upper control characters, from U+0080 on, stand in a path that has no other fault. -/
def UpperControls : Prop :=
  (∀ piece ∈ pathPieces path, piece ≠ [] ∧ piece ≠ ['.'] ∧ piece ≠ ['.', '.']) ∧
    (∀ char ∈ path.toList, char ≠ '\\' ∧ (isControl char = true → 0x80 ≤ char.toNat)) ∧
      ∃ char ∈ path.toList, isControl char = true

/-- Both sides reject a path, or both accept it as it is, and they accept what is well formed. -/
structure Agree (path : String) : Prop where
  same : (AgentRuntime.validateBrowsePath path).toOption = validateBrowsePath path
  accepted : (validateBrowsePath path).isSome = true ↔ WellFormed path
  unchanged : ∀ normal, validateBrowsePath path = some normal → normal = path

theorem intercalate_pieces : "/".intercalate ((pathPieces path).map String.ofList) = path := by
  apply String.toList_injective
  rw [String.toList_intercalate, List.map_map]
  have sameLists : String.toList ∘ String.ofList = id := by
    funext chars
    exact String.toList_ofList
  rw [sameLists, List.map_id]
  exact intercalate_splitOn '/'

variable {chars : List Char} {path normal : String}

theorem pieces_nonempty (nonempty : [] ∉ chars.splitOn '/') :
    chars.head? ≠ some '/' ∧ ¬ (['/', '/'] <:+: chars ∨ chars.getLast? = some '/') := by
  have noSplit : ∀ before after, chars = before ++ '/' :: after →
      [] ∉ before.splitOn '/' ∧ [] ∉ after.splitOn '/' := by
    intro before after split
    rw [split, splitOn_append_cons_self, mem_append, not_or] at nonempty
    exact nonempty
  have nothing : ([] : List Char) ∈ ([] : List Char).splitOn '/' := by decide
  constructor
  · intro starts
    obtain ⟨rest, rfl⟩ := head?_eq_some_iff.mp starts
    exact (noSplit [] rest rfl).1 nothing
  · intro slashes
    rcases slashes with ⟨before, after, rfl⟩ | ends
    · have inAfter := (noSplit before ('/' :: after) (by simp)).2
      apply inAfter
      exact mem_append_left _ nothing
    · obtain ⟨before, rfl⟩ := getLast?_eq_some_iff.mp ends
      exact (noSplit before [] rfl).2 nothing

theorem isControl_iff (char : Char) :
    isControl char ↔ (char < ' ' ∨ char = Char.ofNat 0x7f) ∨
      0x80 ≤ char.toNat ∧ isControl char := by
  have lower : char < ' ' ↔ char.toNat < 0x20 := Iff.rfl
  have delete : char = Char.ofNat 0x7f ↔ char.toNat = 0x7f := by
    rw [← Char.toNat_inj]
    rfl
  rw [lower, delete, isControl]
  simp only [Bool.or_eq_true, Bool.and_eq_true, decide_eq_true_eq]
  omega

/-- A piece that names a component going down. -/
def IsNormal (piece : List Char) : Prop := piece ≠ [] ∧ piece ≠ ['.'] ∧ piece ≠ ['.', '.']

theorem lowerControls_iff :
    (∀ char ∈ chars, char ≠ '\\' ∧ (isControl char → 0x80 ≤ char.toNat)) ↔
      (chars.contains (Char.ofNat 0) || chars.contains '\\') = false ∧
        (chars.any fun char => decide (char < ' ') || char == Char.ofNat 0x7f) = false := by
  rw [Bool.or_eq_false_iff, List.any_eq_false]
  simp only [contains_eq_mem, decide_eq_false_iff_not, Bool.or_eq_true, decide_eq_true_eq,
    beq_iff_eq]
  constructor
  · intro allowed
    refine ⟨⟨?_, ?_⟩, ?_⟩
    · intro hasNul
      have tooLow := (allowed _ hasNul).2 (by decide)
      revert tooLow
      decide
    · intro hasBackslash
      exact (allowed _ hasBackslash).1 rfl
    · intro char mem isLower
      have tooLow := (allowed char mem).2 ((isControl_iff char).mpr (.inl isLower))
      rcases isLower with below | rfl
      · have inAscii : char.toNat < 0x20 := below
        omega
      · revert tooLow
        decide
  · intro absent char mem
    obtain ⟨⟨-, noBackslash⟩, noLower⟩ := absent
    refine ⟨fun isBackslash => noBackslash (isBackslash ▸ mem), ?_⟩
    intro control
    rcases (isControl_iff char).mp control with isLower | isUpper
    · exact absurd isLower (noLower char mem)
    · exact isUpper.1

theorem validateBrowsePath_eq_some_iff (notRoot : path ≠ "") :
    validateBrowsePath path = some normal ↔
      normal = path ∧ (∀ piece ∈ pathPieces path, IsNormal piece) ∧
        ∀ char ∈ path.toList, char ≠ '\\' ∧ (isControl char → 0x80 ≤ char.toNat) := by
  have pieces : (∀ piece ∈ pathPieces path, IsNormal piece) ↔
      ((path.toList.splitOn '/').isEmpty || (path.toList.splitOn '/').any fun part =>
        part.isEmpty || part == ['.'] || part == ['.', '.']) = false := by
    simp [pathPieces, IsNormal, and_assoc]
  rw [lowerControls_iff, pieces]
  rw [validateBrowsePath]
  rw [if_neg notRoot]
  constructor
  · intro accepted
    split at accepted
    · cases accepted
    rename_i noBackslash
    split at accepted
    · cases accepted
    split at accepted
    · cases accepted
    split at accepted
    · cases accepted
    rename_i noControl
    split at accepted
    · cases accepted
    rename_i normalPieces
    have isPath := intercalate_pieces path
    rw [pathPieces, Option.some.inj accepted] at isPath
    exact ⟨isPath, Bool.eq_false_iff.mpr normalPieces,
      Bool.eq_false_iff.mpr noBackslash, Bool.eq_false_iff.mpr noControl⟩
  · intro allowed
    obtain ⟨rfl, normalPieces, noBackslash, noControl⟩ := allowed
    have nonempty : [] ∉ normal.toList.splitOn '/' := fun mem =>
      (pieces.mpr normalPieces [] mem).1 rfl
    obtain ⟨notAbsolute, noSlashes⟩ := pieces_nonempty nonempty
    rw [noBackslash, if_neg Bool.false_ne_true, if_neg notAbsolute, if_neg noSlashes, noControl,
      if_neg Bool.false_ne_true, normalPieces, if_neg Bool.false_ne_true]
    exact congrArg some (intercalate_pieces normal)

theorem head_piece (notEmpty : chars ≠ []) (relative : chars.head? ≠ some '/') :
    (chars.splitOn '/').head? ≠ some [] := by
  cases chars with
  | nil => exact absurd rfl notEmpty
  | cons char rest =>
    have notSlash : (char == '/') = false := by simpa using relative
    obtain ⟨_, _, split⟩ := exists_cons_of_ne_nil (splitOn_ne_nil '/' rest)
    rw [splitOn_cons_eq_if_modifyHead, notSlash, split]
    simp

theorem runtimeChars_iff :
    (chars.any fun char => isControl char || char == '\\') = false ↔
      ∀ char ∈ chars, isControl char = false ∧ char ≠ '\\' := by
  simp [List.any_eq_false]

/-- What the runtime accepts, and what it makes of it. -/
theorem runtime_eq_ok_iff (notRoot : path ≠ "") :
    AgentRuntime.validateBrowsePath path = .ok normal ↔
      normal = "/".intercalate (((pathPieces path).filter (· != ['.'])).map String.ofList) ∧
        (∀ piece ∈ pathPieces path, piece ≠ [] ∧ piece ≠ ['.', '.']) ∧
          (pathPieces path).head? ≠ some ['.'] ∧
            ∀ char ∈ path.toList, isControl char = false ∧ char ≠ '\\' := by
  have notEmpty : path.toList ≠ [] := by
    intro isEmpty
    apply notRoot
    rw [← String.toList_inj, isEmpty]
    rfl
  have parts : (∀ piece ∈ pathPieces path, piece ≠ [] ∧ piece ≠ ['.', '.']) →
      (pathPieces path).filter (fun piece => !piece.isEmpty && piece != ['.']) =
        (pathPieces path).filter (· != ['.']) := by
    intro allowed
    apply filter_congr
    intro piece mem
    simp [(allowed piece mem).1]
  rw [← runtimeChars_iff]
  rw [AgentRuntime.validateBrowsePath]
  rw [if_neg notRoot]
  constructor
  · intro accepted
    split at accepted
    · cases accepted
    split at accepted
    · cases accepted
    rename_i relative
    split at accepted
    · cases accepted
    rename_i noControl
    split at accepted
    · cases accepted
    rename_i normalParts
    split at accepted
    · cases accepted
    rename_i noneEmpty
    rw [not_or] at relative
    rw [not_or, not_or] at normalParts
    have allowed : ∀ piece ∈ pathPieces path, piece ≠ [] ∧ piece ≠ ['.', '.'] := by
      intro piece mem
      constructor
      · rintro rfl
        have headNonempty := head_piece notEmpty relative.1
        rw [pathPieces] at mem noneEmpty
        cases isPieces : path.toList.splitOn '/' with
        | nil => simp [isPieces] at mem
        | cons =>
          rw [isPieces] at mem noneEmpty headNonempty
          rcases mem_cons.mp mem with rfl | later
          · exact headNonempty rfl
          · exact noneEmpty (contains_iff_mem.mpr later)
      · rintro rfl
        apply normalParts.2.1
        rw [contains_iff_mem]
        exact mem_filter.mpr ⟨mem, rfl⟩
    rw [parts allowed] at accepted
    exact ⟨(Except.ok.inj accepted).symm, allowed, normalParts.1, Bool.eq_false_iff.mpr noControl⟩
  · intro conditions
    obtain ⟨rfl, allowed, headNotDot, noControl⟩ := conditions
    have chars := runtimeChars_iff.mp noControl
    have noNul : ¬ path.toList.contains (Char.ofNat 0) := by
      intro hasNul
      have control := (chars _ (contains_iff_mem.mp hasNul)).1
      revert control
      decide
    have relative : ¬ (path.toList.head? = some '/' ∨ path.toList.head? = some '\\') := by
      intro absolute
      rcases absolute with slash | backslash
      · exact (pieces_nonempty (fun mem => (allowed [] mem).1 rfl)).1 slash
      · exact (chars _ (mem_of_head? backslash)).2 rfl
    have normalParts : ¬ ((pathPieces path).head? = some ['.'] ∨
        ((pathPieces path).filter fun piece =>
          !piece.isEmpty && piece != ['.']).contains ['.', '.'] ∨
        ((pathPieces path).filter fun piece =>
          !piece.isEmpty && piece != ['.']).isEmpty) := by
      rintro (isDot | up | none)
      · exact headNotDot isDot
      · have mem := contains_iff_mem.mp up
        exact (allowed _ (mem_filter.mp mem).1).2 rfl
      · obtain ⟨first, _, isPieces⟩ := exists_cons_of_ne_nil (splitOn_ne_nil '/' path.toList)
        have isHead : (pathPieces path).head? = some first := by rw [pathPieces, isPieces]; rfl
        have nonempty := (allowed first (mem_of_head? isHead)).1
        have notDot : first ≠ ['.'] := fun isDot => headNotDot (isDot ▸ isHead)
        rw [List.isEmpty_iff, filter_eq_nil_iff] at none
        apply none first (mem_of_head? isHead)
        simp [nonempty, notDot]
    have noneEmpty : ¬ (pathPieces path).tail.contains [] := by
      intro mem
      exact (allowed [] (mem_of_mem_tail (contains_iff_mem.mp mem))).1 rfl
    rw [if_neg noNul, if_neg relative, noControl, if_neg Bool.false_ne_true, if_neg normalParts,
      if_neg noneEmpty, parts allowed]

theorem wellFormed_iff (notRoot : path ≠ "") :
    WellFormed path ↔ (∀ piece ∈ pathPieces path, IsNormal piece) ∧
      ∀ char ∈ path.toList, isControl char = false ∧ char ≠ '\\' := by
  rw [WellFormed]
  simp [notRoot, IsNormal]

theorem wellFormed_chars :
    (∀ char ∈ path.toList, isControl char = false ∧ char ≠ '\\') ↔
      (∀ char ∈ path.toList, char ≠ '\\' ∧ (isControl char → 0x80 ≤ char.toNat)) ∧
        ¬ ∃ char ∈ path.toList, isControl char := by
  constructor
  · intro allowed
    constructor
    · intro char mem
      refine ⟨(allowed char mem).2, fun control => ?_⟩
      rw [(allowed char mem).1] at control
      exact absurd control Bool.false_ne_true
    · rintro ⟨char, mem, control⟩
      rw [(allowed char mem).1] at control
      exact absurd control Bool.false_ne_true
  · intro allowed char mem
    constructor
    · exact Bool.eq_false_iff.mpr fun control => allowed.2 ⟨char, mem, control⟩
    · exact (allowed.1 char mem).1

theorem runtime_accepts_iff (notRoot : path ≠ "") (noDot : ¬ DotInside path) :
    AgentRuntime.validateBrowsePath path = .ok normal ↔ normal = path ∧ WellFormed path := by
  rw [runtime_eq_ok_iff notRoot, wellFormed_iff notRoot]
  have keepsAll : (∀ piece ∈ pathPieces path, IsNormal piece) →
      "/".intercalate (((pathPieces path).filter (· != ['.'])).map String.ofList) = path := by
    intro normalPieces
    rw [filter_eq_self.mpr, intercalate_pieces]
    intro piece mem
    simpa using (normalPieces piece mem).2.1
  constructor
  · intro accepted
    obtain ⟨isNormal, allowed, headNotDot, chars⟩ := accepted
    have normalPieces : ∀ piece ∈ pathPieces path, IsNormal piece := by
      intro piece mem
      refine ⟨(allowed piece mem).1, ?_, (allowed piece mem).2⟩
      rintro rfl
      exact noDot ⟨notRoot, chars, allowed, headNotDot, mem⟩
    exact ⟨isNormal.trans (keepsAll normalPieces), normalPieces, chars⟩
  · intro wellFormed
    obtain ⟨isPath, normalPieces, chars⟩ := wellFormed
    refine ⟨isPath.trans (keepsAll normalPieces).symm, ?_, ?_, chars⟩
    · intro piece mem
      exact ⟨(normalPieces piece mem).1, (normalPieces piece mem).2.2⟩
    · intro headIsDot
      exact (normalPieces _ (mem_of_head? headIsDot)).2.1 rfl

theorem browser_accepts_iff (notRoot : path ≠ "") (noUpper : ¬ UpperControls path) :
    validateBrowsePath path = some normal ↔ normal = path ∧ WellFormed path := by
  rw [validateBrowsePath_eq_some_iff notRoot, wellFormed_iff notRoot, wellFormed_chars]
  constructor
  · intro accepted
    obtain ⟨isPath, normalPieces, chars⟩ := accepted
    exact ⟨isPath, normalPieces, chars, fun control => noUpper ⟨normalPieces, chars, control⟩⟩
  · intro wellFormed
    obtain ⟨isPath, normalPieces, chars, -⟩ := wellFormed
    exact ⟨isPath, normalPieces, chars⟩

theorem agree_root : Agree "" where
  same := rfl
  accepted := iff_of_true rfl (.inl rfl)
  unchanged _ accepted := (Option.some.inj accepted).symm

theorem toOption_eq_some_iff {result : Except String String} :
    result.toOption = some normal ↔ result = .ok normal := by
  cases result <;> simp [Except.toOption]

theorem Agree.of_accepts (runtime : ∀ normal, AgentRuntime.validateBrowsePath path = .ok normal ↔
      normal = path ∧ WellFormed path) (browser : ∀ normal, validateBrowsePath path = some normal ↔
      normal = path ∧ WellFormed path) : Agree path where
  same := by
    ext normal
    rw [toOption_eq_some_iff, runtime normal, browser normal]
  accepted := by
    rw [isSome_iff_exists]
    constructor
    · intro accepted
      obtain ⟨normal, isSome⟩ := accepted
      exact ((browser normal).mp isSome).2
    · intro wellFormed
      exact ⟨path, (browser path).mpr ⟨rfl, wellFormed⟩⟩
  unchanged normal accepted := ((browser normal).mp accepted).1

theorem DotInside.not_agree (dotInside : DotInside path) : ¬ Agree path := by
  intro agree
  obtain ⟨notRoot, chars, allowed, headNotDot, hasDot⟩ := dotInside
  have runtime := (runtime_eq_ok_iff notRoot).mpr ⟨rfl, allowed, headNotDot, chars⟩
  have browser := agree.same
  rw [runtime] at browser
  have normalPieces := ((validateBrowsePath_eq_some_iff notRoot).mp browser.symm).2.1
  exact (normalPieces _ hasDot).2.1 rfl

theorem UpperControls.not_agree (upper : UpperControls path) : ¬ Agree path := by
  intro agree
  obtain ⟨normalPieces, chars, control⟩ := upper
  have notRoot : path ≠ "" := by
    rintro rfl
    exact (normalPieces [] (by decide)).1 rfl
  have browser := (validateBrowsePath_eq_some_iff notRoot).mpr ⟨rfl, normalPieces, chars⟩
  have wellFormed := agree.accepted.mp (isSome_of_eq_some browser)
  exact (wellFormed_chars.mp ((wellFormed_iff notRoot).mp wellFormed).2).2 control

/-- The two sides agree on a path, and accept what they should, if and only if the path has
neither a dot inside nor upper control characters as its only fault. -/
theorem agree_iff (path : String) : Agree path ↔ ¬ DotInside path ∧ ¬ UpperControls path := by
  constructor
  · intro agree
    exact ⟨fun dotInside => dotInside.not_agree agree, fun upper => upper.not_agree agree⟩
  · intro faultless
    by_cases isRoot : path = ""
    · rw [isRoot]
      exact agree_root
    · exact Agree.of_accepts (fun _ => runtime_accepts_iff isRoot faultless.1)
        (fun _ => browser_accepts_iff isRoot faultless.2)

/-- The runtime takes `a/./b` for `a/b`, and the browser rejects it. -/
theorem not_agree_dot_inside : ¬ ∀ path, Agree path := by
  intro agree
  have rejected : validateBrowsePath "a/./b" = none := by decide
  have rewritten : (AgentRuntime.validateBrowsePath "a/./b").toOption = some "a/b" := by decide
  have same := (agree "a/./b").same
  exact absurd same (some_ne_none _)

end PiRelay.Web
