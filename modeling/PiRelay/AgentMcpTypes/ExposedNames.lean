import PiRelay.AgentMcpTypes.Candidates

/-! Every exposed name is one that providers accept. -/
namespace PiRelay.AgentMcpTypes

open Library List

/-- The digest of a value is 64 digits in hexadecimal. -/
structure HexDigest (sha256Hex : Json → String) : Prop where
  length : ∀ value, (sha256Hex value).toList.length = 64
  digits : ∀ value, ∀ char ∈ (sha256Hex value).toList,
    char.isDigit = true ∨ 'a' ≤ char ∧ char ≤ 'f'

/-- A name that providers accept. -/
structure ProviderName (name : String) : Prop where
  nonempty : name ≠ ""
  bytes : name.utf8ByteSize ≤ maxProviderNameBytes
  chars : name.toList.all isNameChar = true

theorem utf8Size_of_isNameChar {char : Char} (named : isNameChar char) : char.utf8Size = 1 := by
  have small : char.val.toNat ≤ 127 := by
    unfold isNameChar Char.isAlphanum Char.isAlpha Char.isUpper Char.isLower Char.isDigit at named
    simp only [Bool.or_eq_true, Bool.and_eq_true, decide_eq_true_eq, beq_iff_eq,
      UInt32.le_iff_toNat_le, ge_iff_le] at named
    have upperLast : 'Z'.val.toNat = 90 := rfl
    have lowerLast : 'z'.val.toNat = 122 := rfl
    have digitLast : '9'.val.toNat = 57 := rfl
    rcases named with (alphanumeric | rfl) | rfl
    · omega
    · decide
    · decide
  rw [Char.utf8Size, if_pos (UInt32.le_iff_toNat_le.mpr small)]

theorem ofList_bytes_of_names {chars : List Char} (named : ∀ char ∈ chars, isNameChar char) :
    (String.ofList chars).utf8ByteSize = chars.length := by
  rw [Json.ofList_bytes]
  induction chars with
  | nil => rfl
  | cons char _ ih =>
    rw [map_cons, sum_cons, utf8Size_of_isNameChar (named char mem_cons_self),
      ih (forall_mem_cons.mp named).2, length_cons]
    omega

theorem sanitize_named {replacing : Bool} {chars : List Char} :
    ∀ char ∈ sanitize replacing chars, isNameChar char := by
  induction chars generalizing replacing with
  | nil => simp [sanitize]
  | cons _ _ ih =>
    rw [sanitize]
    split
    · rename_i named
      exact forall_mem_cons.mpr ⟨named, ih⟩
    · split
      · exact ih
      · exact forall_mem_cons.mpr ⟨by decide, ih⟩

theorem sanitizedComponent_named (value : String) :
    ∀ char ∈ (sanitizedComponent value).toList, isNameChar char := by
  rw [sanitizedComponent]
  split
  · exact all_eq_true.mp (by decide +kernel)
  · rw [String.toList_ofList]
    exact sanitize_named

theorem preliminaryName_named (serverId rawName : String) :
    ∀ char ∈ (preliminaryName serverId rawName).toList, isNameChar char := by
  have opens : ∀ char ∈ ("mcp__").toList, isNameChar char := all_eq_true.mp (by decide +kernel)
  have separates : ∀ char ∈ ("__").toList, isNameChar char := all_eq_true.mp (by decide +kernel)
  simp only [preliminaryName, String.toList_append, forall_mem_append]
  exact ⟨⟨⟨opens, sanitizedComponent_named serverId⟩, separates⟩, sanitizedComponent_named rawName⟩

theorem preliminaryName_ne (serverId rawName : String) : preliminaryName serverId rawName ≠ "" := by
  intro empty
  have noChars := congrArg String.toList empty
  simp [preliminaryName] at noChars

variable {sha256Hex : Json → String}

section

variable (hex : HexDigest sha256Hex)
include hex

theorem HexDigest.named (value : Json) : ∀ char ∈ (sha256Hex value).toList, isNameChar char := by
  intro char mem
  rcases hex.digits value char mem with digit | letter
  · unfold isNameChar Char.isAlphanum
    simp [digit]
  · have lower : char.isLower := by
      unfold Char.isLower
      simp only [Bool.and_eq_true, decide_eq_true_eq]
      exact ⟨letter.1, letter.2.trans (by decide)⟩
    unfold isNameChar Char.isAlphanum Char.isAlpha
    simp [lower]

/-- A name with a hash is one that providers accept. -/
theorem nameWithHash_valid {base : String} (named : ∀ char ∈ base.toList, isNameChar char)
    (value : Json) : ProviderName (nameWithHash base (sha256Hex value)) := by
  have digits : ∀ char ∈ (sha256Hex value).toList.take hashSuffixHexBytes,
      isNameChar char := fun char mem =>
    hex.named value char (mem_of_mem_take mem)
  have cut : ∀ (bytes : Nat), ∀ char ∈ base.toList.take bytes, isNameChar char :=
    fun bytes char mem => named char (mem_of_mem_take mem)
  have suffixBytes : ("__" ++ String.ofList ((sha256Hex value).toList.take
      hashSuffixHexBytes)).utf8ByteSize = 12 := by
    have underscores : ("__").utf8ByteSize = 2 := by decide
    rw [String.utf8ByteSize_append, ofList_bytes_of_names digits, length_take, hex.length,
      underscores]
    rfl
  constructor
  · intro empty
    have noChars := congrArg String.toList empty
    simp [nameWithHash] at noChars
  · rw [nameWithHash, String.utf8ByteSize_append, suffixBytes, ofList_bytes_of_names (cut _),
      length_take]
    have limit : maxProviderNameBytes = 64 := rfl
    omega
  · have underscores : ∀ char ∈ ("__").toList, isNameChar char := all_eq_true.mp (by decide +kernel)
    rw [all_eq_true]
    simp only [nameWithHash, String.toList_append, String.toList_ofList, forall_mem_append]
    exact ⟨cut _, underscores, digits⟩

theorem exposedNameOf_valid (preliminaryCounts : String → Nat) (tool : DiscoveredTool) :
    ProviderName (exposedNameOf preliminaryCounts (candidateOf sha256Hex tool)) := by
  have named := preliminaryName_named tool.serverId tool.rawName
  rw [exposedNameOf]
  split
  · exact nameWithHash_valid hex named _
  · rename_i plain
    rw [not_or, not_lt] at plain
    exact ⟨preliminaryName_ne _ _, plain.1, all_eq_true.mpr named⟩

end

end PiRelay.AgentMcpTypes
