import Mathlib.Data.List.Basic
import Mathlib.Tactic.Linarith

/-!
# Limiting what a tool returns

`output.rs`: an output over the budget keeps a head and a tail around a notice. Characters are
counted, so an output is a list of them.
-/

namespace PiRelay.AgentTools

open List

def defaultMaxToolOutputTokens : Nat := 10000
def approxCharsPerOutputToken : Nat := 4
def usizeMax : Nat := 2 ^ 64 - 1

/-- The notice that stands for `omitted` characters. -/
def truncationNotice (omitted : Nat) : List Char :=
  "[tool output truncated: ".toList ++ Nat.toDigits 10 omitted ++ " characters omitted]".toList

def limitToolOutputChars (output : List Char) (maxChars : Nat) : List Char :=
  let total := output.length
  if total ≤ maxChars then output
  else if maxChars = 0 then truncationNotice total
  else
    let headChars := min (maxChars * 3) usizeMax / 5
    let tailCharsCount := maxChars - headChars
    let head := output.take headChars
    let tail := (output.reverse.take tailCharsCount).reverse
    let omitted := total - (headChars + tailCharsCount)
    head ++ "\n\n".toList ++ truncationNotice omitted ++ "\n\n".toList ++ tail

def limitToolOutputWithMaxTokens (output : List Char) (maxOutputTokens : Option Nat) : List Char :=
  let maxTokens := maxOutputTokens.getD defaultMaxToolOutputTokens
  limitToolOutputChars output (min (maxTokens * approxCharsPerOutputToken) usizeMax)

def limitToolOutput (output : List Char) : List Char := limitToolOutputWithMaxTokens output none

variable {output head middle tail : List Char} {maxChars m n : Nat}

theorem toDigits_inj : Nat.toDigits 10 m = Nat.toDigits 10 n ↔ m = n := by
  constructor
  · intro h
    have hParsed := congrArg (fun digits => Nat.ofDigitChars 10 digits 0) h
    simpa only [Nat.ofDigitChars_ten_toDigits] using hParsed
  · rintro rfl
    rfl

theorem truncationNotice_inj : truncationNotice m = truncationNotice n ↔ m = n := by
  constructor
  · intro h
    exact toDigits_inj.mp (append_cancel_left (append_cancel_right h))
  · rintro rfl
    rfl

theorem length_front : "[tool output truncated: ".toList.length = 24 := by decide +kernel

theorem length_back : " characters omitted]".toList.length = 20 := by decide +kernel

theorem length_truncationNotice :
    (truncationNotice n).length = 44 + (Nat.toDigits 10 n).length := by
  unfold truncationNotice
  rw [length_append, length_append, length_front, length_back]
  omega

/-- A number and its own digits: past two digits the number outgrows their count. -/
theorem add_length_toDigits_eq_iff {frame : Nat} (hLow : 9 ≤ frame) (hHigh : frame ≤ 96) :
    frame + (Nat.toDigits 10 n).length = n ↔ n = frame + 2 := by
  have hCount (k : Nat) (hk : 0 < k) : (Nat.toDigits 10 n).length ≤ k ↔ n < 10 ^ k :=
    Nat.length_toDigits_le_iff (by decide) hk
  have hPos : 0 < (Nat.toDigits 10 n).length := Nat.length_toDigits_pos
  have hOne := hCount 1 (by decide)
  have hTwo := hCount 2 (by decide)
  constructor
  · intro h
    by_cases hSmall : n < 100
    · omega
    · have hGap := hCount (n - frame - 1) (by omega)
      have hPow : n - frame - 4 < 10 ^ (n - frame - 4) := Nat.lt_pow_self (by decide)
      have hSplit : 10 ^ (n - frame - 1) = 10 ^ (n - frame - 4) * 10 ^ 3 := by
        rw [← Nat.pow_add]
        congr 1
        omega
      omega
  · rintro rfl
    omega

theorem limitToolOutputChars_of_le (h : output.length ≤ maxChars) :
    limitToolOutputChars output maxChars = output :=
  if_pos h

theorem limitToolOutputChars_zero (h : 0 < output.length) :
    limitToolOutputChars output 0 = truncationNotice output.length := by
  rw [limitToolOutputChars]
  simp only [if_neg (show ¬ output.length ≤ 0 by omega), if_true]

/-- Over a positive budget the head and the tail fill it, whatever lies between them. -/
theorem limitToolOutputChars_split (hMax : 0 < maxChars) (hMiddle : 0 < middle.length)
    (hHead : head.length = min (maxChars * 3) usizeMax / 5)
    (hTail : head.length + tail.length = maxChars) :
    limitToolOutputChars (head ++ middle ++ tail) maxChars =
      head ++ "\n\n".toList ++ truncationNotice middle.length ++ "\n\n".toList ++ tail := by
  have hLength : (head ++ middle ++ tail).length = maxChars + middle.length := by
    simp only [length_append]
    omega
  have hKept : maxChars - head.length = tail.length := by omega
  have hOmitted : maxChars + middle.length - (head.length + tail.length) = middle.length := by omega
  rw [limitToolOutputChars]
  simp only [hLength, ← hHead, hKept, hOmitted, if_neg hMax.ne',
    if_neg (show ¬ maxChars + middle.length ≤ maxChars by omega)]
  simp only [append_assoc, take_left, reverse_append]
  rw [take_left' (by rw [length_reverse]), reverse_reverse]

/-- An output over the budget has a head and a tail of the lengths the limiter takes. -/
theorem exists_split (h : maxChars < output.length) : ∃ head middle tail,
    output = head ++ middle ++ tail ∧ head.length = min (maxChars * 3) usizeMax / 5 ∧
      head.length + tail.length = maxChars ∧ middle.length = output.length - maxChars := by
  have hHead : min (maxChars * 3) usizeMax / 5 ≤ maxChars := by omega
  generalize min (maxChars * 3) usizeMax / 5 = k at hHead
  refine ⟨output.take k, (output.drop k).take (output.length - maxChars),
    (output.drop k).drop (output.length - maxChars), ?_, ?_, ?_, ?_⟩
  · rw [append_assoc, take_append_drop, take_append_drop]
  · rw [length_take]
    omega
  · simp only [length_take, length_drop]
    omega
  · rw [length_take, length_drop]
    omega

/-- What limiting promises of an output: one that fits is kept, of any other a head and a tail stay
around a notice of what is missing, and limiting what was limited changes nothing. -/
structure LimitsFaithfully (output : List Char) (maxChars : Nat) : Prop where
  fits : output.length ≤ maxChars → limitToolOutputChars output maxChars = output
  truncates : maxChars < output.length → ∃ head missing tail separator,
    output = head ++ missing ++ tail ∧ limitToolOutputChars output maxChars =
      head ++ separator ++ truncationNotice missing.length ++ separator ++ tail
  settles : limitToolOutputChars (limitToolOutputChars output maxChars) maxChars =
    limitToolOutputChars output maxChars

/-- A long output keeps its head and its tail. -/
theorem limitToolOutputChars_truncates (h : maxChars < output.length) :
    ∃ head missing tail separator, output = head ++ missing ++ tail ∧
      limitToolOutputChars output maxChars =
        head ++ separator ++ truncationNotice missing.length ++ separator ++ tail := by
  by_cases hMax : maxChars = 0
  · subst hMax
    exact ⟨[], output, [], [], by simp, by simp [limitToolOutputChars_zero h]⟩
  · obtain ⟨head, middle, tail, rfl, hHead, hTail, _⟩ := exists_split h
    exact ⟨head, middle, tail, _, rfl,
      limitToolOutputChars_split (Nat.pos_of_ne_zero hMax) (by omega) hHead hTail⟩

/-- With no budget the second notice reports the length of the first. -/
theorem settles_zero_iff (h : 0 < output.length) :
    limitToolOutputChars (limitToolOutputChars output 0) 0 = limitToolOutputChars output 0 ↔
      output.length = 46 := by
  have hNotice : 0 < (truncationNotice output.length).length := by
    rw [length_truncationNotice]
    omega
  rw [limitToolOutputChars_zero h, limitToolOutputChars_zero hNotice, truncationNotice_inj,
    length_truncationNotice, add_length_toDigits_eq_iff (by decide) (by decide)]

/-- Over a positive budget the second notice reports the length of the first with its blank lines:
the head and the tail are taken from the same places. -/
theorem settles_pos_iff (hMax : 0 < maxChars) (h : maxChars < output.length) :
    limitToolOutputChars (limitToolOutputChars output maxChars) maxChars =
      limitToolOutputChars output maxChars ↔ output.length = maxChars + 50 := by
  obtain ⟨head, middle, tail, hOutput, hHead, hTail, _⟩ := exists_split h
  have hOnce := limitToolOutputChars_split hMax (show 0 < middle.length by omega) hHead hTail
  rw [← hOutput] at hOnce
  have hLength : ("\n\n".toList ++ truncationNotice middle.length ++ "\n\n".toList).length =
      48 + (Nat.toDigits 10 middle.length).length := by
    have hBlank : "\n\n".length = 2 := by decide +kernel
    simp only [length_append, length_truncationNotice, String.length_toList, hBlank]
    omega
  have hTwice := @limitToolOutputChars_split head ("\n\n".toList ++
    truncationNotice middle.length ++ "\n\n".toList) tail maxChars hMax (by omega) hHead hTail
  have hSame (k : Nat) : head ++ "\n\n".toList ++ truncationNotice k ++ "\n\n".toList ++ tail =
      head ++ "\n\n".toList ++ truncationNotice middle.length ++ "\n\n".toList ++ tail ↔
        k = middle.length := by
    rw [append_left_inj, append_left_inj, append_right_inj]
    exact truncationNotice_inj
  rw [hOnce]
  simp only [append_assoc] at hTwice hSame hLength ⊢
  rw [hTwice, hSame, hLength, add_length_toDigits_eq_iff (by decide) (by decide)]
  omega

/-- Limiting is faithful for the outputs that fit, and for those of the one length whose notice
happens to count itself. -/
theorem limitsFaithfully_iff (output : List Char) (maxChars : Nat) :
    LimitsFaithfully output maxChars ↔ output.length ≤ maxChars ∨
      (0 < maxChars ∧ output.length = maxChars + 50) ∨ (maxChars = 0 ∧ output.length = 46) := by
  by_cases hFits : output.length ≤ maxChars
  · have hKept := limitToolOutputChars_of_le hFits
    exact ⟨fun _ => .inl hFits, fun _ => ⟨fun _ => hKept, fun h => absurd hFits (by omega),
      by rw [hKept, hKept]⟩⟩
  · have hOver : maxChars < output.length := by omega
    have hLaw : LimitsFaithfully output maxChars ↔
        limitToolOutputChars (limitToolOutputChars output maxChars) maxChars =
          limitToolOutputChars output maxChars :=
      ⟨fun h => h.settles, fun h => ⟨fun h' => absurd h' hFits, limitToolOutputChars_truncates, h⟩⟩
    rw [hLaw]
    by_cases hMax : maxChars = 0
    · subst hMax
      rw [settles_zero_iff hOver]
      omega
    · rw [settles_pos_iff (Nat.pos_of_ne_zero hMax) hOver]
      omega

/-- Two characters over a budget of one: limited again, the notice speaks of 49 characters. -/
theorem limitsFaithfully_fails : ¬ ∀ output maxChars, LimitsFaithfully output maxChars := by
  intro h
  exact absurd (h ['a', 'b'] 1).settles (by decide +kernel)

end PiRelay.AgentTools
