import Mathlib.Data.List.Basic

/-! Keeping the newest items of a list within a budget. An item that does not fit is
shortened to what is left, and then nothing is; one that cannot be shortened is skipped. -/
namespace Library

open List Option

universe u v

variable {Item : Type u}

/-- The items to keep, newest first. Every item costs at least one. -/
def retainNewest (cost : Item → Nat) (shorten : Item → Nat → Option Item) :
    List Item → Nat → List Item
  | [], _ => []
  | item :: older, left =>
    if left = 0 then []
    else if max (cost item) 1 ≤ left then
      item :: retainNewest cost shorten older (left - max (cost item) 1)
    else
      match shorten item left with
      | some shortened => [shortened]
      | none => retainNewest cost shorten older left

/-- What is left of the budget after the items. -/
def budgetLeft (cost : Item → Nat) (shorten : Item → Nat → Option Item) : List Item → Nat → Nat
  | [], left => left
  | item :: older, left =>
    if max (cost item) 1 ≤ left then
      budgetLeft cost shorten older (left - max (cost item) 1)
    else
      match shorten item left with
      | some _ => 0
      | none => budgetLeft cost shorten older left

variable {cost : Item → Nat} {shorten : Item → Nat → Option Item}

@[simp] theorem retainNewest_zero (items : List Item) : retainNewest cost shorten items 0 = [] := by
  cases items with
  | nil => rfl
  | cons => simp [retainNewest]

/-- What is older is retained from what the newer items leave. -/
theorem retainNewest_append (newer older : List Item) (left : Nat) :
    retainNewest cost shorten (newer ++ older) left =
      retainNewest cost shorten newer left ++
        retainNewest cost shorten older (budgetLeft cost shorten newer left) := by
  induction newer generalizing left with
  | nil => rfl
  | cons item rest ih =>
    by_cases used : left = 0
    · subst used
      have none : budgetLeft cost shorten (item :: rest) 0 = 0 := by
        have never : ∀ items : List Item, budgetLeft cost shorten items 0 = 0 := by
          intro items
          induction items with
          | nil => rfl
          | cons _ _ ih =>
            rw [budgetLeft, if_neg (by omega)]
            split
            · rfl
            · exact ih
        exact never _
      rw [none]
      simp
    · rw [cons_append, retainNewest, if_neg used, retainNewest, if_neg used, budgetLeft]
      by_cases fits : max (cost item) 1 ≤ left
      · rw [if_pos fits, if_pos fits, if_pos fits, ih, cons_append]
      · rw [if_neg fits, if_neg fits, if_neg fits]
        cases shorten item left with
        | some => simp
        | none => exact ih left

theorem retainNewest_cons_reached {item : Item} {older : List Item} {left : Nat}
    (reached : 0 < left)
    (shortens : left < max (cost item) 1 → ∃ shortened, shorten item left = some shortened) :
    ∃ kept rest, retainNewest cost shorten (item :: older) left = kept :: rest ∧
      (kept = item ∨ shorten item left = some kept) := by
  rw [retainNewest, if_neg (by omega)]
  by_cases fits : max (cost item) 1 ≤ left
  · exact ⟨item, _, if_pos fits, .inl rfl⟩
  · obtain ⟨shortened, isShortened⟩ := shortens (by omega)
    rw [if_neg fits, isShortened]
    exact ⟨shortened, [], rfl, .inr rfl⟩

theorem mem_retainNewest {items : List Item} {left : Nat} {kept : Item}
    (mem : kept ∈ retainNewest cost shorten items left) :
    ∃ item ∈ items, kept = item ∨ ∃ limit, shorten item limit = some kept := by
  induction items generalizing left with
  | nil => cases mem
  | cons item _ ih =>
    rw [retainNewest] at mem
    split at mem
    · cases mem
    · split at mem
      · rcases mem_cons.mp mem with rfl | later
        · exact ⟨kept, .head _, .inl rfl⟩
        · obtain ⟨other, inOlder, isKept⟩ := ih later
          exact ⟨other, .tail _ inOlder, isKept⟩
      · split at mem
        · rename_i shortened isShortened
          obtain rfl := mem_singleton.mp mem
          exact ⟨item, .head _, .inr ⟨left, isShortened⟩⟩
        · obtain ⟨other, inOlder, isKept⟩ := ih mem
          exact ⟨other, .tail _ inOlder, isKept⟩

section

variable {Marked : Type v} (forget : Marked → Item) {shortenMarked : Marked → Nat → Option Marked}
  (agrees : ∀ item limit, (shortenMarked item limit).map forget = shorten (forget item) limit)
  (items : List Marked) (left : Nat)
include agrees

theorem retainNewest_map :
    (retainNewest (fun item => cost (forget item)) shortenMarked items left).map forget =
      retainNewest cost shorten (items.map forget) left := by
  induction items generalizing left with
  | nil => rfl
  | cons item _ ih =>
    rw [map_cons, retainNewest, retainNewest]
    split
    · rfl
    · split
      · rw [map_cons, ih]
      · have same := agrees item left
        cases isShortened : shortenMarked item left with
        | some =>
          rw [isShortened, map_some] at same
          rw [← same]
          rfl
        | none =>
          rw [isShortened, map_none] at same
          rw [← same]
          exact ih left

theorem budgetLeft_map :
    budgetLeft (fun item => cost (forget item)) shortenMarked items left =
      budgetLeft cost shorten (items.map forget) left := by
  induction items generalizing left with
  | nil => rfl
  | cons item _ ih =>
    rw [map_cons, budgetLeft, budgetLeft]
    split
    · exact ih _
    · have same := agrees item left
      cases isShortened : shortenMarked item left with
      | some =>
        rw [isShortened, map_some] at same
        rw [← same]
      | none =>
        rw [isShortened, map_none] at same
        rw [← same]
        exact ih left

end

/-- What becomes of an item: it is dropped, kept whole, or kept shortened. -/
inductive Fate (Item : Type u) where
  | dropped
  | whole
  | shortened (kept : Item)

/-- What is returned for an item. -/
def Fate.returned (item : Item) : Fate Item → Option Item
  | .dropped => none
  | .whole => some item
  | .shortened kept => some kept

/-- The fates, newest first. -/
def fates (cost : Item → Nat) (shorten : Item → Nat → Option Item) :
    List Item → Nat → List (Item × Fate Item)
  | [], _ => []
  | item :: older, left =>
    if left = 0 then (item, .dropped) :: fates cost shorten older 0
    else if max (cost item) 1 ≤ left then
      (item, .whole) :: fates cost shorten older (left - max (cost item) 1)
    else
      match shorten item left with
      | some shortened => (item, .shortened shortened) :: fates cost shorten older 0
      | none => (item, .dropped) :: fates cost shorten older left

/-- What the kept ones among newer items leave of a budget. -/
def leaves (cost : Item → Nat) : Nat → List (Item × Fate Item) → Nat
  | left, [] => left
  | left, (item, .whole) :: older => leaves cost (left - max (cost item) 1) older
  | left, (_, .dropped) :: older => leaves cost left older
  | _, (_, .shortened _) :: older => leaves cost 0 older

/-- The cost of the items that are kept whole. -/
def wholeCost (cost : Item → Nat) : List (Item × Fate Item) → Nat
  | [] => 0
  | (item, .whole) :: older => max (cost item) 1 + wholeCost cost older
  | _ :: older => wholeCost cost older

/-- The fate of an item that finds `left` of the budget, with the fates of the older items. -/
def Deserves (cost : Item → Nat) (shorten : Item → Nat → Option Item) (left : Nat) (item : Item)
    (older : List (Item × Fate Item)) : Fate Item → Prop
  | .dropped => left = 0 ∨ (left < max (cost item) 1 ∧ shorten item left = none)
  | .whole => max (cost item) 1 ≤ left
  | .shortened kept => 0 < left ∧ left < max (cost item) 1 ∧ shorten item left = some kept ∧
      ∀ later ∈ older, later.2 = .dropped

section

variable (items : List Item)
include items

theorem fates_map_fst (left : Nat) : (fates cost shorten items left).map Prod.fst = items := by
  induction items generalizing left with
  | nil => rfl
  | cons _ _ ih =>
    rw [fates]
    split
    · rw [map_cons, ih]
    · split
      · rw [map_cons, ih]
      · split <;> rw [map_cons, ih]

theorem fates_zero : ∀ decided ∈ fates cost shorten items 0, decided.2 = .dropped := by
  induction items with
  | nil => simp [fates]
  | cons _ _ ih =>
    rw [fates, if_pos rfl]
    exact forall_mem_cons.mpr ⟨rfl, ih⟩

theorem returned_fates_zero :
    (fates cost shorten items 0).filterMap (fun decided => decided.2.returned decided.1) = [] := by
  rw [filterMap_eq_nil_iff]
  intro decided mem
  rw [fates_zero items decided mem]
  rfl

theorem returned_fates (left : Nat) :
    (fates cost shorten items left).filterMap (fun decided => decided.2.returned decided.1) =
      retainNewest cost shorten items left := by
  induction items generalizing left with
  | nil => rfl
  | cons item older ih =>
    rw [fates, retainNewest]
    split
    · exact returned_fates_zero older
    · split
      · rw [filterMap_cons, ih]
        rfl
      · cases shorten item left with
        | some =>
          rw [filterMap_cons, returned_fates_zero]
          rfl
        | none =>
          rw [filterMap_cons, ih]
          rfl

theorem wholeCost_fates_le (left : Nat) :
    wholeCost cost (fates cost shorten items left) ≤ left := by
  induction items generalizing left with
  | nil => exact Nat.zero_le left
  | cons item _ ih =>
    rw [fates]
    split
    · rename_i used
      rw [used]
      exact ih 0
    · split
      · have rest := ih (left - max (cost item) 1)
        rw [wholeCost]
        omega
      · cases shorten item left with
        | some => exact Nat.le_trans (ih 0) (Nat.zero_le left)
        | none => exact ih left

end

/-- Each item gets what the budget that its newer ones leave allows. -/
theorem fates_deserved {items : List Item} {left : Nat} {newer older : List (Item × Fate Item)}
    {item : Item} {fate : Fate Item}
    (decided : fates cost shorten items left = newer ++ (item, fate) :: older) :
    Deserves cost shorten (leaves cost left newer) item older fate := by
  induction items generalizing left newer with
  | nil => cases newer <;> cases decided
  | cons _ rest ih =>
    rw [fates] at decided
    split at decided
    · rename_i used
      subst used
      cases newer with
      | nil =>
        cases decided
        exact .inl rfl
      | cons =>
        obtain ⟨rfl, later⟩ := List.cons.inj decided
        exact (ih later :)
    · rename_i some
      split at decided
      · rename_i fits
        cases newer with
        | nil =>
          cases decided
          exact fits
        | cons =>
          obtain ⟨rfl, later⟩ := List.cons.inj decided
          exact (ih later :)
      · rename_i tooLarge
        split at decided
        · rename_i shortened isShortened
          cases newer with
          | nil =>
            cases decided
            exact ⟨Nat.pos_of_ne_zero some, Nat.lt_of_not_le tooLarge, isShortened, fates_zero rest⟩
          | cons =>
            obtain ⟨rfl, later⟩ := List.cons.inj decided
            exact (ih later :)
        · rename_i isNone
          cases newer with
          | nil =>
            cases decided
            exact .inr ⟨Nat.lt_of_not_le tooLarge, isNone⟩
          | cons =>
            obtain ⟨rfl, later⟩ := List.cons.inj decided
            exact (ih later :)

end Library
