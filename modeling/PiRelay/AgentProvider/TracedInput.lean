import PiRelay.AgentProvider.RetainedInput

/-! The input of a request with the message each of its items is of. The marks are carried
beside the items, through the rendering and through the retention of a compaction; without
them the items are those of the adapter. -/
namespace PiRelay.AgentProvider

open AgentVocab Session List Option
open Library (Json bind_eq_ok retainNewest budgetLeft)

/-- An item, and the message it is the whole or a shortened copy of. -/
abbrev TracedItem := Option Nat × Json

/-- An entry, and the message of each of its items; an item without a mark is of none. -/
abbrev TracedEntry := ModelContextEntry × List (Option Nat)

def markItems : List (Option Nat) → List Json → List TracedItem
  | _, [] => []
  | [], item :: rest => (none, item) :: markItems [] rest
  | mark :: marks, item :: rest => (mark, item) :: markItems marks rest

@[simp] theorem markItems_snd (marks : List (Option Nat)) (items : List Json) :
    (markItems marks items).map Prod.snd = items := by
  induction items generalizing marks with
  | nil => cases marks <;> rfl
  | cons _ _ ih => cases marks <;> simp [markItems, ih]

theorem markItems_fst {marks : List (Option Nat)} {items : List Json}
    (enough : marks.length = items.length) : (markItems marks items).map Prod.fst = marks := by
  induction items generalizing marks with
  | nil => rw [eq_nil_of_length_eq_zero enough]; rfl
  | cons _ _ ih =>
    cases marks with
    | nil => cases enough
    | cons => rw [markItems, map_cons, ih (Nat.succ.inj enough)]

theorem markItems_nil_fst {items : List Json} {item : TracedItem}
    (mem : item ∈ markItems [] items) : item.1 = none := by
  induction items with
  | nil => cases mem
  | cons _ _ ih =>
    rcases mem_cons.mp mem with rfl | later
    · rfl
    · exact ih later

variable (text : ProviderText) (prompt : PromptSections)

def tracedItems : List TracedEntry → ProviderResult (List TracedItem)
  | [] => .ok []
  | (entry, marks) :: rest => do
    let items ← entryResponseItems text prompt entry
    let later ← tracedItems rest
    .ok (markItems marks items ++ later)

def tracedEntryCandidates (entry : ModelContextEntry) (marks : List (Option Nat)) :
    ProviderResult (List TracedItem) :=
  if carriesMessages entry.item then do
    let items ← transcriptToResponseItems text prompt [entry]
    .ok ((markItems marks items).filter fun item => isRetainedCompactionInputItem text item.2)
  else .ok []

def tracedCandidates : List TracedEntry → ProviderResult (List TracedItem)
  | [] => .ok []
  | (entry, marks) :: rest => do
    let candidates ← tracedEntryCandidates text prompt entry marks
    let later ← tracedCandidates rest
    .ok (candidates ++ later)

def truncateTraced (item : TracedItem) (limit : Nat) : Option TracedItem :=
  (truncateCompactionMessage item.2 limit).map fun shortened => (item.1, shortened)

def retainTraced (candidates : List TracedItem) (maxTokens : Nat) : List TracedItem :=
  (retainNewest (fun item => compactItemTextTokens text item.2) truncateTraced candidates.reverse
    maxTokens).reverse

theorem tracedEntryCandidates_snd (entry : ModelContextEntry) (marks : List (Option Nat)) :
    (tracedEntryCandidates text prompt entry marks).map (List.map Prod.snd) =
      entryCandidates text prompt entry := by
  rw [tracedEntryCandidates, entryCandidates]
  split
  · cases transcriptToResponseItems text prompt [entry] with
    | error => rfl
    | ok items =>
      show Except.ok (((markItems marks items).filter
        (isRetainedCompactionInputItem text ∘ Prod.snd)).map Prod.snd) = _
      rw [← List.filter_map, markItems_snd]
      rfl
  · rfl

theorem tracedCandidates_snd (entries : List TracedEntry) :
    (tracedCandidates text prompt entries).map (List.map Prod.snd) =
      retainedCandidates text prompt (entries.map Prod.fst) := by
  induction entries with
  | nil => rfl
  | cons traced rest ih =>
    rw [map_cons, tracedCandidates, retainedCandidates, ← ih,
      ← tracedEntryCandidates_snd text prompt traced.1 traced.2]
    cases tracedEntryCandidates text prompt traced.1 traced.2 with
    | error => rfl
    | ok candidates =>
      cases tracedCandidates text prompt rest with
      | error => rfl
      | ok later =>
        show Except.ok ((candidates ++ later).map Prod.snd) = _
        rw [map_append]
        rfl

theorem truncateTraced_snd (item : TracedItem) (limit : Nat) :
    (truncateTraced item limit).map Prod.snd = truncateCompactionMessage item.2 limit := by
  rw [truncateTraced, Option.map_map]
  cases truncateCompactionMessage item.2 limit <;> rfl

theorem retainTraced_snd (candidates : List TracedItem) (maxTokens : Nat) :
    (retainTraced text candidates maxTokens).map Prod.snd =
      truncateRetainedCompactionInput text (candidates.map Prod.snd) maxTokens := by
  have same : (retainNewest (fun item => compactItemTextTokens text item.2) truncateTraced
      candidates.reverse maxTokens).map Prod.snd = retainNewest (compactItemTextTokens text)
        truncateCompactionMessage (candidates.reverse.map Prod.snd) maxTokens :=
    Library.retainNewest_map Prod.snd truncateTraced_snd candidates.reverse maxTokens
  rw [retainTraced, truncateRetainedCompactionInput, map_reverse, same, map_reverse]

theorem tracedCandidates_append (older newer : List TracedEntry) :
    tracedCandidates text prompt (older ++ newer) = (do
      let first ← tracedCandidates text prompt older
      let later ← tracedCandidates text prompt newer
      .ok (first ++ later)) := by
  induction older with
  | nil =>
    show tracedCandidates text prompt newer = (do
      let later ← tracedCandidates text prompt newer
      .ok later)
    cases tracedCandidates text prompt newer <;> rfl
  | cons traced rest ih =>
    rw [cons_append, tracedCandidates, tracedCandidates, ih]
    cases tracedEntryCandidates text prompt traced.1 traced.2 with
    | error => rfl
    | ok candidates =>
      cases tracedCandidates text prompt rest with
      | error => rfl
      | ok first =>
        cases tracedCandidates text prompt newer with
        | error => rfl
        | ok later =>
          show Except.ok (candidates ++ (first ++ later)) = Except.ok (candidates ++ first ++ later)
          rw [append_assoc]

theorem tracedCandidates_unmarked {entries : List TracedEntry}
    (unmarked : ∀ traced ∈ entries, traced.2 = []) {candidates : List TracedItem}
    (found : tracedCandidates text prompt entries = .ok candidates) :
    ∀ item ∈ candidates, item.1 = none := by
  induction entries generalizing candidates with
  | nil =>
    cases found
    intro item mem
    cases mem
  | cons traced _ ih =>
    obtain ⟨_, isFirst, found⟩ := bind_eq_ok.mp found
    obtain ⟨_, isLater, found⟩ := bind_eq_ok.mp found
    cases found
    intro item mem
    rcases mem_append.mp mem with inFirst | inLater
    · rw [tracedEntryCandidates, unmarked traced mem_cons_self] at isFirst
      split at isFirst
      · obtain ⟨_, -, isFirst⟩ := bind_eq_ok.mp isFirst
        cases isFirst
        exact markItems_nil_fst (mem_filter.mp inFirst).1
      · cases isFirst
        cases inFirst
    · exact ih (forall_mem_cons.mp unmarked).2 isLater item inLater

theorem tracedEntryCandidates_user (message : UserMessage)
    (providerReplay : List ProviderReplayItem) (mark : Option Nat) :
    tracedEntryCandidates text prompt { item := .userMessage message, providerReplay } [mark] =
      .ok [(mark, userMessageItem message)] := rfl

section Retained

variable {text prompt}

theorem retainTraced_exhausted {older newer : List TracedItem}
    (unmarked : ∀ item ∈ newer, item.1 = none) {maxTokens : Nat}
    (exhausted : budgetLeft (fun item => compactItemTextTokens text item.2) truncateTraced
      newer.reverse maxTokens = 0) :
    ∀ item ∈ retainTraced text (older ++ newer) maxTokens, item.1 = none := by
  intro item mem
  rw [retainTraced, reverse_append, Library.retainNewest_append, exhausted,
    Library.retainNewest_zero, append_nil, mem_reverse] at mem
  obtain ⟨candidate, inNewer, rfl | ⟨_, shortens⟩⟩ := Library.mem_retainNewest mem
  · exact unmarked item (mem_reverse.mp inNewer)
  · rw [truncateTraced] at shortens
    obtain ⟨-, -, rfl⟩ := map_eq_some_iff.mp shortens
    exact unmarked candidate (mem_reverse.mp inNewer)

/-- A message that the budget reaches is retained, whole or cut. -/
theorem retainTraced_reached {older newer : List TracedItem} {mark : Option Nat}
    {message : UserMessage} {maxTokens : Nat}
    (reached : 0 < budgetLeft (fun item => compactItemTextTokens text item.2) truncateTraced
      newer.reverse maxTokens) :
    ∃ item ∈ retainTraced text (older ++ (mark, userMessageItem message) :: newer) maxTokens,
      item.1 = mark := by
  have split : (older ++ (mark, userMessageItem message) :: newer).reverse =
      newer.reverse ++ (mark, userMessageItem message) :: older.reverse := by simp
  rw [retainTraced, split, Library.retainNewest_append]
  generalize budgetLeft _ truncateTraced newer.reverse maxTokens = left at reached
  have shortens : left < max (compactItemTextTokens text (userMessageItem message)) 1 →
      ∃ shortened, truncateTraced (mark, userMessageItem message) left = some shortened := by
    intro costly
    obtain ⟨shortened, isShortened⟩ := truncate_userMessage text message reached costly
    exact ⟨(mark, shortened), by rw [truncateTraced, isShortened]; rfl⟩
  have keeps : ∃ kept rest, retainNewest (fun item => compactItemTextTokens text item.2)
      truncateTraced ((mark, userMessageItem message) :: older.reverse) left = kept :: rest ∧
        (kept = (mark, userMessageItem message) ∨
          truncateTraced (mark, userMessageItem message) left = some kept) :=
    Library.retainNewest_cons_reached reached shortens
  obtain ⟨kept, rest, isRetained, isKept⟩ := keeps
  refine ⟨kept, ?_, ?_⟩
  · rw [mem_reverse, isRetained]
    exact mem_append_right _ (.head _)
  · rcases isKept with rfl | isShortened
    · rfl
    · rw [truncateTraced] at isShortened
      obtain ⟨shortened, -, rfl⟩ := map_eq_some_iff.mp isShortened
      rfl

end Retained

end PiRelay.AgentProvider
