import Mathlib.Data.String.Basic
import PiRelay.AgentProvider.RetainedInput

/-! Which items an OpenAI compaction keeps of its input, and what it alters: a text is cut in its
middle, and only the oldest item kept is cut at all. -/
namespace PiRelay.AgentProvider

open List
open Library (Json Fate fates leaves wholeCost)
open String (utf8Len)

/-- A text whose middle gave way to a notice of its tokens. -/
def CutText (original shortened : String) : Prop :=
  ∃ start removed ending : List Char, original.toList = start ++ removed ++ ending ∧
    shortened = String.ofList start ++ "…"
      ++ toString (approxTokensFromByteCount (utf8Len removed)) ++ " tokens truncated…"
      ++ String.ofList ending

theorem takeBytes_prefix (bytes : Nat) (text : List Char) : takeBytes bytes text <+: text := by
  induction text generalizing bytes with
  | nil => exact nil_prefix
  | cons _ _ ih =>
    rw [takeBytes]
    split
    · exact cons_prefix_cons.mpr ⟨rfl, ih _⟩
    · exact nil_prefix

theorem utf8Len_takeBytes_le (bytes : Nat) (text : List Char) :
    utf8Len (takeBytes bytes text) ≤ bytes := by
  induction text generalizing bytes with
  | nil => exact Nat.zero_le bytes
  | cons char _ ih =>
    rw [takeBytes]
    split
    · have later := ih (bytes - char.utf8Size)
      rw [String.utf8Len_cons]
      omega
    · exact Nat.zero_le bytes

/-- A beginning and an end that are shorter together than the text do not overlap. -/
theorem exists_between {text start ending : List Char} (starts : start <+: text)
    (ends : ending <:+ text) (short : utf8Len start + utf8Len ending < utf8Len text) :
    ∃ removed, text = start ++ removed ++ ending := by
  obtain ⟨rest, rfl⟩ := starts
  rw [String.utf8Len_append] at short
  rcases suffix_or_suffix_of_suffix ends (suffix_append start rest) with within | covers
  · obtain ⟨removed, rfl⟩ := within
    exact ⟨removed, (append_assoc _ _ _).symm⟩
  · have := String.utf8Len_le_of_suffix covers
    omega

/-- A long text is cut in its middle, with a notice there. -/
theorem truncateMiddle_cuts {text : String} {maxTokens : Nat}
    (long : maxTokens < approxTokensFromByteCount text.utf8ByteSize) :
    CutText text (truncateMiddleToApproxTokens text maxTokens) := by
  have tooLong : ¬ text.utf8ByteSize ≤ maxTokens * 4 := by
    rw [approxTokensFromByteCount] at long
    omega
  have startBytes := utf8Len_takeBytes_le (maxTokens * 4 / 2) text.toList
  have endBytes := utf8Len_takeBytes_le (maxTokens * 4 - maxTokens * 4 / 2) text.toList.reverse
  have starts := takeBytes_prefix (maxTokens * 4 / 2) text.toList
  have ends := takeBytes_prefix (maxTokens * 4 - maxTokens * 4 / 2) text.toList.reverse
  rw [truncateMiddleToApproxTokens, if_neg tooLong]
  generalize takeBytes (maxTokens * 4 / 2) text.toList = start at *
  generalize takeBytes (maxTokens * 4 - maxTokens * 4 / 2) text.toList.reverse = ending at *
  rw [← String.utf8Len_toList] at tooLong
  have endsText : ending.reverse <:+ text.toList := by
    rw [← reverse_prefix, reverse_reverse]
    exact ends
  have short : utf8Len start + utf8Len ending.reverse < utf8Len text.toList := by
    rw [String.utf8Len_reverse]
    omega
  obtain ⟨removed, split⟩ := exists_between starts endsText short
  refine ⟨start, removed, ending.reverse, split, ?_⟩
  have gone : text.utf8ByteSize - (String.ofList ending.reverse).utf8ByteSize -
      (String.ofList start).utf8ByteSize = utf8Len removed := by
    rw [← String.utf8Len_toList, split, String.utf8ByteSize_ofList, String.utf8ByteSize_ofList,
      String.utf8Len_append, String.utf8Len_append]
    omega
  simp only [gone]

/-- A part of a message is kept as it is, or its text is cut. -/
def KeptPart (original kept : Json) : Prop :=
  kept = original ∨ ∃ text shortened, original.getStr "text" = some text ∧
    kept = original.set "text" (.string shortened) ∧ CutText text shortened

def isNonText (part : Json) : Bool := (part.getStr "text").isNone

/-- A message that is shortened keeps every part that is no text, and of the texts some, in their
order, each whole or cut. -/
def ShortenedMessage (item kept : Json) : Prop :=
  ∃ content parts origins : List Json, item.getStr "type" = some "message" ∧
    item.getArray "content" = some content ∧ kept = item.set "content" (.array parts) ∧
    origins.Sublist content ∧ List.Forall₂ KeptPart origins parts ∧
    origins.filter isNonText = content.filter isNonText

theorem truncateParts_keeps (content : List Json) (remaining : Nat) :
    ∃ origins, origins.Sublist content ∧
      List.Forall₂ KeptPart origins (truncateParts content remaining) ∧
      origins.filter isNonText = content.filter isNonText := by
  induction content generalizing remaining with
  | nil => exact ⟨[], .slnil, .nil, rfl⟩
  | cons part _ ih =>
    rw [truncateParts]
    cases said : part.getStr "text" with
    | none =>
      obtain ⟨origins, sublist, kept, nonText⟩ := ih remaining
      exact ⟨part :: origins, sublist.cons_cons part, .cons (.inl rfl) kept, by
        rw [filter_cons, filter_cons, nonText]⟩
    | some original =>
      have isText : isNonText part = false := by rw [isNonText, said]; rfl
      simp only
      split
      · obtain ⟨origins, sublist, kept, nonText⟩ := ih remaining
        exact ⟨origins, sublist.cons part, kept, by
          rw [nonText, filter_cons_of_neg (by rw [isText]; decide)]⟩
      · split
        · obtain ⟨origins, sublist, kept, nonText⟩ :=
            ih (remaining - approxTokensFromByteCount original.utf8ByteSize)
          exact ⟨part :: origins, sublist.cons_cons part, .cons (.inl rfl) kept, by
            rw [filter_cons, filter_cons, nonText]⟩
        · rename_i long
          obtain ⟨origins, sublist, kept, nonText⟩ := ih 0
          exact ⟨part :: origins, sublist.cons_cons part, .cons (.inr ⟨original, _, said, rfl,
              truncateMiddle_cuts (Nat.lt_of_not_le long)⟩) kept, by
            rw [filter_cons, filter_cons, nonText]⟩

theorem truncateCompactionMessage_shortens {item kept : Json} {limit : Nat}
    (shortens : truncateCompactionMessage item limit = some kept) : ShortenedMessage item kept := by
  rw [truncateCompactionMessage] at shortens
  split at shortens
  · rename_i isMessage
    obtain ⟨content, isContent, shortens⟩ := Option.bind_eq_some_iff.mp shortens
    simp only at shortens
    split at shortens
    · cases shortens
    · cases shortens
      obtain ⟨origins, sublist, parts, nonText⟩ := truncateParts_keeps content limit
      exact ⟨content, _, origins, isMessage, isContent, rfl, sublist, parts, nonText⟩
  · cases shortens

variable (text : ProviderText)

/-- A message that does not fit can be shortened: one without content costs what everything
costs at least. -/
theorem truncate_message {item : Json} {left : Nat}
    (isMessage : item.getStr "type" = some "message") (reached : 0 < left)
    (costly : left < max (compactItemTextTokens text item) 1) :
    truncateCompactionMessage item left ≠ none := by
  have tokens : compactItemTextTokens text item =
      contentTokens ((item.getArray "content").getD []) := by
    rw [compactItemTextTokens, isMessage]
    rfl
  rw [truncateCompactionMessage, if_pos isMessage]
  cases isContent : item.getArray "content" with
  | none =>
    rw [tokens, isContent] at costly
    simp [contentTokens] at costly
    omega
  | some content =>
    rw [tokens, isContent, Option.getD_some] at costly
    have stays : truncateParts content left ≠ [] := truncateParts_ne_nil reached (by omega)
    simp [stays]

/-- What becomes of an item when the newer ones leave `left` of the budget. Only an item that is
no message is ever dropped for want of room. -/
def Retained (left : Nat) (item : Json) (older : List (Json × Fate Json)) : Fate Json → Prop
  | .dropped => left = 0 ∨ (item.getStr "type" ≠ some "message" ∧
      left < max (compactItemTextTokens text item) 1)
  | .whole => max (compactItemTextTokens text item) 1 ≤ left
  | .shortened kept => 0 < left ∧ left < max (compactItemTextTokens text item) 1 ∧
      ShortenedMessage item kept ∧ ∀ decided ∈ older, decided.2 = .dropped

/-- Each item of the input, newest first, has a fate: what is returned is what they return, the
items kept whole fit into the budget, and each fate follows from what the newer items leave. -/
theorem truncateRetainedCompactionInput_selects (items : List Json) (maxTokens : Nat) :
    ∃ decided : List (Json × Fate Json), decided.map Prod.fst = items.reverse ∧
      truncateRetainedCompactionInput text items maxTokens =
        (decided.filterMap fun entry => entry.2.returned entry.1).reverse ∧
      wholeCost (compactItemTextTokens text) decided ≤ maxTokens ∧
      ∀ newer item fate older, decided = newer ++ (item, fate) :: older →
        Retained text (leaves (compactItemTextTokens text) maxTokens newer) item older fate := by
  refine ⟨fates (compactItemTextTokens text) truncateCompactionMessage items.reverse maxTokens,
    Library.fates_map_fst _ _, ?_, Library.wholeCost_fates_le _ _, ?_⟩
  · rw [Library.returned_fates]
    rfl
  · intro newer item fate older isSplit
    have deserved := Library.fates_deserved isSplit
    cases fate with
    | whole => exact deserved
    | shortened =>
      obtain ⟨reached, costly, shortens, last⟩ := deserved
      exact ⟨reached, costly, truncateCompactionMessage_shortens shortens, last⟩
    | dropped =>
      by_cases used : leaves (compactItemTextTokens text) maxTokens newer = 0
      · exact .inl used
      · obtain ⟨costly, cannot⟩ := deserved.resolve_left used
        exact .inr ⟨fun isMessage =>
          truncate_message text isMessage (Nat.pos_of_ne_zero used) costly cannot, costly⟩

end PiRelay.AgentProvider
