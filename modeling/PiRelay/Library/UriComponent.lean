import Mathlib.Algebra.Ring.Nat
import Mathlib.Data.List.Basic

/-! Text in UTF-16 code units, and the percent encoding of its characters in a component of a
URI. What is encoded is read back. -/
namespace Library

open List Option

abbrev CodeUnits := List UInt16

/-- The units of a literal in ASCII. -/
def units (literal : String) : CodeUnits :=
  literal.toList.map fun char => UInt16.ofNat char.toNat

def isHighSurrogate (unit : UInt16) : Bool := 0xD800 ≤ unit.toNat && unit.toNat < 0xDC00

def isLowSurrogate (unit : UInt16) : Bool := 0xDC00 ≤ unit.toNat && unit.toNat < 0xE000

def surrogatePair (high low : UInt16) : Nat :=
  (high.toNat - 0xD800) * 0x400 + (low.toNat - 0xDC00) + 0x10000

/-- The code points of a text without a lone surrogate. -/
def codePoints : CodeUnits → Option (List Nat)
  | [] => some []
  | unit :: rest =>
    if isLowSurrogate unit then none
    else if isHighSurrogate unit then
      match rest with
      | [] => none
      | low :: rest =>
        if isLowSurrogate low then (codePoints rest).map (surrogatePair unit low :: ·)
        else none
    else (codePoints rest).map (unit.toNat :: ·)

variable (point : Nat)

def utf16 : CodeUnits :=
  if point < 0x10000 then [UInt16.ofNat point]
  else
    [UInt16.ofNat (0xD800 + (point - 0x10000) / 0x400),
      UInt16.ofNat (0xDC00 + (point - 0x10000) % 0x400)]

def utf8 : List Nat :=
  if point < 0x80 then [point]
  else if point < 0x800 then [0xC0 + point / 0x40, 0x80 + point % 0x40]
  else if point < 0x10000 then
    [0xE0 + point / 0x1000, 0x80 + point / 0x40 % 0x40, 0x80 + point % 0x40]
  else
    [0xF0 + point / 0x40000, 0x80 + point / 0x1000 % 0x40, 0x80 + point / 0x40 % 0x40,
      0x80 + point % 0x40]

def IsScalar : Prop := point < 0xD800 ∨ 0xE000 ≤ point ∧ point < 0x110000

instance (point : Nat) : Decidable (IsScalar point) :=
  inferInstanceAs (Decidable (point < 0xD800 ∨ 0xE000 ≤ point ∧ point < 0x110000))

/-- Letters, digits and `-_.!~*'()`. -/
def isUnreserved : Bool :=
  (0x30 ≤ point && point ≤ 0x39) || (0x41 ≤ point && point ≤ 0x5A) ||
    (0x61 ≤ point && point ≤ 0x7A) ||
      [0x2D, 0x5F, 0x2E, 0x21, 0x7E, 0x2A, 0x27, 0x28, 0x29].contains point

def hexDigit (digit : Nat) : UInt16 :=
  UInt16.ofNat (if digit < 10 then 0x30 + digit else 0x37 + digit)

def percent (octet : Nat) : CodeUnits := [0x25, hexDigit (octet / 16), hexDigit (octet % 16)]

def escape : CodeUnits :=
  if isUnreserved point then [UInt16.ofNat point] else (utf8 point).flatMap percent

/-- Nothing, where a surrogate stands alone. -/
def encodeURIComponent (text : CodeUnits) : Option CodeUnits :=
  (codePoints text).map (·.flatMap escape)

def hexValue (unit : UInt16) : Option Nat :=
  let code := unit.toNat
  if 0x30 ≤ code ∧ code ≤ 0x39 then some (code - 0x30)
  else if 0x41 ≤ code ∧ code ≤ 0x46 then some (code - 0x37)
  else if 0x61 ≤ code ∧ code ≤ 0x66 then some (code - 0x57)
  else none

/-- A character of which some octets are still to come. -/
structure PendingPoint where
  needed : Nat
  value : Nat
  least : Nat

namespace PendingPoint

def idle : PendingPoint := ⟨0, 0, 0⟩

def leading (octet : Nat) : Option PendingPoint :=
  if octet < 0xC0 then none
  else if octet < 0xE0 then some ⟨1, octet - 0xC0, 0x80⟩
  else if octet < 0xF0 then some ⟨2, octet - 0xE0, 0x800⟩
  else if octet < 0xF8 then some ⟨3, octet - 0xF0, 0x10000⟩
  else none

/-- Overlong forms and surrogates are no characters. -/
def read (pending : PendingPoint) (octet : Nat) : Option (PendingPoint × CodeUnits) :=
  if pending.needed = 0 then
    if octet < 0x80 then some (idle, [UInt16.ofNat octet])
    else (leading octet).map (·, [])
  else if octet / 0x40 ≠ 2 then none
  else
    let value := pending.value * 0x40 + octet % 0x40
    if pending.needed ≠ 1 then some (⟨pending.needed - 1, value, pending.least⟩, [])
    else if pending.least ≤ value ∧ IsScalar value then some (idle, utf16 value)
    else none

def decode (pending : PendingPoint) : CodeUnits → Option CodeUnits
  | [] => if pending.needed = 0 then some [] else none
  | unit :: rest =>
    if unit ≠ 0x25 then
      if pending.needed = 0 then (pending.decode rest).map (unit :: ·) else none
    else
      match rest with
      | high :: low :: rest => do
        let upper ← hexValue high
        let lower ← hexValue low
        let (next, done) ← pending.read (upper * 16 + lower)
        (next.decode rest).map (done ++ ·)
      | _ => none

end PendingPoint

/-- Nothing, where a percent sign begins no octet, or the octets are no characters. -/
def decodeURIComponent (text : CodeUnits) : Option CodeUnits := PendingPoint.idle.decode text

variable {digit point : Nat} {unit : UInt16}

theorem hexDigit_toNat (isDigit : digit < 16) :
    (hexDigit digit).toNat = if digit < 10 then 0x30 + digit else 0x37 + digit := by
  rw [hexDigit, UInt16.toNat_ofNat_of_lt']
  split <;> simp [UInt16.size] <;> omega

theorem hexValue_hexDigit (isDigit : digit < 16) : hexValue (hexDigit digit) = some digit := by
  rw [hexValue, hexDigit_toNat isDigit]
  by_cases isDecimal : digit < 10
  · rw [if_pos isDecimal, if_pos (by omega)]
    exact congrArg some (by omega)
  · rw [if_neg isDecimal, if_neg (by omega), if_pos (by omega)]
    exact congrArg some (by omega)

theorem isUnreserved_lt (unreserved : isUnreserved point) : point < 0x80 := by
  simp only [isUnreserved, Bool.or_eq_true, Bool.and_eq_true, decide_eq_true_eq,
    contains_eq_mem, mem_cons, not_mem_nil, or_false] at unreserved
  omega

theorem unit_ne_percent (unreserved : isUnreserved point) : UInt16.ofNat point ≠ 0x25 := by
  intro isPercent
  have isAscii := isUnreserved_lt unreserved
  have isCode : point = 0x25 := by
    have sameCode := congrArg UInt16.toNat isPercent
    rwa [UInt16.toNat_ofNat_of_lt' (by rw [UInt16.size]; omega)] at sameCode
  rw [isCode] at unreserved
  exact absurd unreserved (by decide)

namespace PendingPoint

variable {octet : Nat} {next : PendingPoint}

theorem decode_percent (isOctet : octet < 256) {pending : PendingPoint} {done : CodeUnits}
    (reads : pending.read octet = some (next, done)) (rest : CodeUnits) :
    pending.decode (percent octet ++ rest) = (next.decode rest).map (done ++ ·) := by
  have whole : octet / 16 * 16 + octet % 16 = octet := by omega
  rw [percent, cons_append, cons_append, cons_append, nil_append, decode, if_neg (by simp)]
  simp only [hexValue_hexDigit (show octet / 16 < 16 by omega),
    hexValue_hexDigit (show octet % 16 < 16 by omega), bind_eq_bind, bind_some,
    whole, reads]

theorem decode_percent_incomplete (isOctet : octet < 256) {pending : PendingPoint}
    (reads : pending.read octet = some (next, [])) (rest : CodeUnits) :
    pending.decode (percent octet ++ rest) = next.decode rest := by
  rw [decode_percent isOctet reads]
  simp

theorem decode_cons {unit : UInt16} (plain : unit ≠ 0x25) (rest : CodeUnits) :
    idle.decode (unit :: rest) = (idle.decode rest).map (unit :: ·) := by
  rw [decode.eq_def]
  simp [plain, idle]

theorem decode_plain {text : CodeUnits} (plain : 0x25 ∉ text) : idle.decode text = some text := by
  induction text with
  | nil => rfl
  | cons _ _ ih =>
    rw [mem_cons, not_or] at plain
    rw [decode_cons (Ne.symm plain.1), ih plain.2]
    rfl

theorem read_later {needed value least low : Nat} (isLow : low < 0x40) :
    (PendingPoint.mk (needed + 2) value least).read (0x80 + low) =
      some (⟨needed + 1, value * 0x40 + low, least⟩, []) := by
  have continues : (0x80 + low) / 0x40 = 2 := by omega
  have lowest : (0x80 + low) % 0x40 = low := by omega
  simp [read, continues, lowest]

theorem read_last {value least low : Nat} (isLow : low < 0x40)
    (enough : least ≤ value * 0x40 + low) (scalar : IsScalar (value * 0x40 + low)) :
    (PendingPoint.mk 1 value least).read (0x80 + low) =
      some (idle, utf16 (value * 0x40 + low)) := by
  have continues : (0x80 + low) / 0x40 = 2 := by omega
  have lowest : (0x80 + low) % 0x40 = low := by omega
  simp [read, continues, lowest, enough, scalar]

theorem read_leading (notAscii : 0x80 ≤ octet) (leads : leading octet = some next) :
    idle.read octet = some (next, []) := by
  simp [read, idle, show ¬ octet < 0x80 by omega, leads]

theorem read_ascii (isAscii : octet < 0x80) :
    idle.read octet = some (idle, [UInt16.ofNat octet]) := by
  simp [read, idle, isAscii]

/-- The escaped octets of a scalar decode to its code units. -/
theorem decode_utf8 {point : Nat} (scalar : IsScalar point) (rest : CodeUnits) :
    idle.decode ((utf8 point).flatMap percent ++ rest) =
      (idle.decode rest).map (utf16 point ++ ·) := by
  have bounded : point < 0x110000 := by
    rw [IsScalar] at scalar
    omega
  rw [utf8]
  split_ifs with isAscii isTwo isThree
  · have isUnit : utf16 point = [UInt16.ofNat point] := if_pos (by omega)
    rw [flatMap_cons, append_assoc, decode_percent (by omega) (read_ascii isAscii), isUnit]
    rfl
  · have leads : leading (0xC0 + point / 0x40) = some ⟨1, point / 0x40, 0x80⟩ := by
      rw [leading, if_neg (by omega), if_pos (by omega), Nat.add_sub_cancel_left]
    have whole : point / 0x40 * 0x40 + point % 0x40 = point := by omega
    rw [flatMap_cons, flatMap_cons, append_assoc, append_assoc,
      decode_percent_incomplete (by omega) (read_leading (by omega) leads),
      decode_percent (by omega) (read_last (by omega) (by omega) (by rwa [whole])), whole]
    rfl
  · have leads : leading (0xE0 + point / 0x1000) = some ⟨2, point / 0x1000, 0x800⟩ := by
      rw [leading, if_neg (by omega), if_neg (by omega), if_pos (by omega), Nat.add_sub_cancel_left]
    have upper : point / 0x1000 * 0x40 + point / 0x40 % 0x40 = point / 0x40 := by omega
    have whole : point / 0x40 * 0x40 + point % 0x40 = point := by omega
    rw [flatMap_cons, flatMap_cons, flatMap_cons, append_assoc, append_assoc, append_assoc,
      decode_percent_incomplete (by omega) (read_leading (by omega) leads),
      decode_percent_incomplete (by omega) (read_later (by omega)), upper,
      decode_percent (by omega) (read_last (by omega) (by omega) (by rwa [whole])), whole]
    rfl
  · have leads : leading (0xF0 + point / 0x40000) = some ⟨3, point / 0x40000, 0x10000⟩ := by
      rw [leading, if_neg (by omega), if_neg (by omega), if_neg (by omega), if_pos (by omega),
        Nat.add_sub_cancel_left]
    have highest : point / 0x40000 * 0x40 + point / 0x1000 % 0x40 = point / 0x1000 := by omega
    have upper : point / 0x1000 * 0x40 + point / 0x40 % 0x40 = point / 0x40 := by omega
    have whole : point / 0x40 * 0x40 + point % 0x40 = point := by omega
    rw [flatMap_cons, flatMap_cons, flatMap_cons, flatMap_cons,
      append_assoc, append_assoc, append_assoc, append_assoc,
      decode_percent_incomplete (by omega) (read_leading (by omega) leads),
      decode_percent_incomplete (by omega) (read_later (by omega)), highest,
      decode_percent_incomplete (by omega) (read_later (by omega)), upper,
      decode_percent (by omega) (read_last (by omega) (by omega) (by rwa [whole])), whole]
    rfl

theorem decode_escape {point : Nat} (scalar : IsScalar point) (rest : CodeUnits) :
    idle.decode (escape point ++ rest) = (idle.decode rest).map (utf16 point ++ ·) := by
  rw [escape]
  split_ifs with unreserved
  · have isAscii := isUnreserved_lt unreserved
    have isUnit : utf16 point = [UInt16.ofNat point] := if_pos (by omega)
    rw [singleton_append, decode_cons (unit_ne_percent unreserved), isUnit]
    rfl
  · exact decode_utf8 scalar rest

theorem decode_flatMap {written : Nat → CodeUnits} {points : List Nat}
    (readBack : ∀ point ∈ points, ∀ rest,
      idle.decode (written point ++ rest) = (idle.decode rest).map (utf16 point ++ ·)) :
    idle.decode (points.flatMap written) = some (points.flatMap utf16) := by
  induction points with
  | nil => rfl
  | cons point _ ih =>
    rw [flatMap_cons, readBack point mem_cons_self, ih (forall_mem_cons.mp readBack).2]
    rfl

end PendingPoint

theorem utf16_surrogatePair {high low : UInt16} (isHigh : isHighSurrogate high)
    (isLow : isLowSurrogate low) : utf16 (surrogatePair high low) = [high, low] := by
  simp only [isHighSurrogate, isLowSurrogate, Bool.and_eq_true, decide_eq_true_eq] at isHigh isLow
  have upper : 0xD800 + (surrogatePair high low - 0x10000) / 0x400 = high.toNat := by
    rw [surrogatePair]
    omega
  have lower : 0xDC00 + (surrogatePair high low - 0x10000) % 0x400 = low.toNat := by
    rw [surrogatePair]
    omega
  rw [utf16, if_neg (by rw [surrogatePair]; omega), upper, lower, UInt16.ofNat_toNat,
    UInt16.ofNat_toNat]

theorem surrogatePair_scalar {high low : UInt16} (isHigh : isHighSurrogate high)
    (isLow : isLowSurrogate low) : IsScalar (surrogatePair high low) := by
  simp only [isHighSurrogate, isLowSurrogate, Bool.and_eq_true, decide_eq_true_eq] at isHigh isLow
  rw [IsScalar, surrogatePair]
  omega

theorem codePoints_scalar {text : CodeUnits} {points : List Nat}
    (isText : codePoints text = some points) :
    points.flatMap utf16 = text ∧ ∀ point ∈ points, IsScalar point := by
  fun_induction codePoints text generalizing points with
  | case1 =>
    rw [← Option.some.inj isText]
    simp
  | case2 | case3 | case5 => cases isText
  | case4 _ _ isHigh _ _ isLow ih =>
    obtain ⟨later, isRest, rfl⟩ := map_eq_some_iff.mp isText
    obtain ⟨same, scalars⟩ := ih isRest
    constructor
    · rw [flatMap_cons, utf16_surrogatePair isHigh isLow, same]
      rfl
    · rw [forall_mem_cons]
      exact ⟨surrogatePair_scalar isHigh isLow, scalars⟩
  | case6 unit _ notLow notHigh ih =>
    obtain ⟨later, isRest, rfl⟩ := map_eq_some_iff.mp isText
    obtain ⟨same, scalars⟩ := ih isRest
    have inPlane := unit.toNat_lt
    constructor
    · rw [flatMap_cons, utf16, if_pos inPlane, UInt16.ofNat_toNat, same]
      rfl
    · rw [forall_mem_cons]
      simp only [isHighSurrogate, isLowSurrogate, Bool.and_eq_true, decide_eq_true_eq]
        at notHigh notLow
      constructor
      · rw [IsScalar]
        omega
      · exact scalars

theorem codePoints_cons (isAscii : unit.toNat < 0x80) (rest : CodeUnits) :
    codePoints (unit :: rest) = (codePoints rest).map (unit.toNat :: ·) := by
  have notHigh : isHighSurrogate unit = false := by
    rw [isHighSurrogate, Bool.and_eq_false_iff]
    exact .inl (decide_eq_false (by omega))
  have notLow : isLowSurrogate unit = false := by
    rw [isLowSurrogate, Bool.and_eq_false_iff]
    exact .inl (decide_eq_false (by omega))
  rw [codePoints.eq_def]
  simp [notHigh, notLow]

theorem encodeURIComponent_isSome_append {before : CodeUnits}
    (isAscii : ∀ unit ∈ before, unit.toNat < 0x80) (text : CodeUnits) :
    (encodeURIComponent (before ++ text)).isSome = (encodeURIComponent text).isSome := by
  induction before with
  | nil => rfl
  | cons unit _ ih =>
    have later := ih (forall_mem_cons.mp isAscii).2
    rw [encodeURIComponent, isSome_map] at later ⊢
    rw [cons_append, codePoints_cons (isAscii unit mem_cons_self), isSome_map, later]

theorem mem_percent {octet : Nat} (isOctet : octet < 256) (mem : unit ∈ percent octet) :
    unit = 0x25 ∨ ∃ digit < 16, unit = hexDigit digit := by
  simp only [percent, mem_cons, not_mem_nil, or_false] at mem
  rcases mem with isPercent | isUpper | isLower
  · exact .inl isPercent
  · exact .inr ⟨octet / 16, by omega, isUpper⟩
  · exact .inr ⟨octet % 16, by omega, isLower⟩

theorem utf8_lt (scalar : IsScalar point) : ∀ octet ∈ utf8 point, octet < 256 := by
  intro octet mem
  rw [IsScalar] at scalar
  rw [utf8] at mem
  split_ifs at mem <;> simp only [mem_cons, not_mem_nil, or_false] at mem <;> omega

theorem mem_utf8_percent (scalar : IsScalar point) (mem : unit ∈ (utf8 point).flatMap percent) :
    unit = 0x25 ∨ ∃ digit < 16, unit = hexDigit digit := by
  obtain ⟨octet, isOctet, written⟩ := mem_flatMap.mp mem
  exact mem_percent (utf8_lt scalar octet isOctet) written

theorem isUnreserved_hexDigit (isDigit : digit < 16) : isUnreserved (hexDigit digit).toNat := by
  rw [hexDigit_toNat isDigit]
  have each : ∀ digit < 16, isUnreserved (if digit < 10 then 0x30 + digit else 0x37 + digit) =
      true := by decide
  exact each digit isDigit

end Library
