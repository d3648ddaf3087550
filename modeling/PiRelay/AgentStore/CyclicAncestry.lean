import PiRelay.AgentStore.TurnCardPages
import PiRelay.Library.Ancestry

/-! Ancestry that goes round. The query of a branch tests what it reaches before it lists it,
and always reports a cycle. The query of a page looks for the cycle while it fills the page,
and reports it if the page is not full before the branch meets its anchor. -/
namespace PiRelay.Store

open AgentVocab Session List Option
open Library ParentMap

variable (entries : List TranscriptEntryRow)

def rowAbove (row : TranscriptEntryRow) : Option TranscriptEntryRow :=
  ((displayRows entries).parent row).bind (displayRows entries).lookup

/-- One round of `reachable`, which adds what it has not got. The latest row is the first. -/
def reachNext (reached : List TranscriptEntryRow) : Option (List TranscriptEntryRow) :=
  match reached.head?.bind (rowAbove entries) with
  | none => none
  | some parent => if parent ∈ reached then none else some (parent :: reached)

def reachable (row : TranscriptEntryRow) : List TranscriptEntryRow :=
  ((unfold (reachNext entries) entries.length [row]).getLast?).getD []

def ancestryInvalid (row : TranscriptEntryRow) : Bool :=
  (reachable entries row).all fun reached => (rowAbove entries reached).isSome

def branchEntryIdsQuery (leafId : Option EntryId) : Except String (List EntryId) :=
  match leafId.bind (displayRows entries).lookup with
  | none => .ok []
  | some row =>
    if ancestryInvalid entries row then .error "transcript ancestry contains a cycle"
    else .ok ((unfold (rowAbove entries) entries.length row).map (·.node.id)).reverse

variable {entries : List TranscriptEntryRow} {key : Option EntryId} {limit depth : Nat}
  {row : TranscriptEntryRow}

theorem displayRows_listed (entries : List TranscriptEntryRow) :
    ∀ id row, (displayRows entries).lookup id = some row → row ∈ entries :=
  fun _ _ found => mem_of_find?_eq_some found

section

variable (isRow : (displayRows entries).visit key depth = some row)
include isRow

theorem visit_lookup : (displayRows entries).lookup row.node.id = some row := by
  have found : ∃ id, (displayRows entries).lookup id = some row := by
    cases depth with
    | zero =>
      obtain ⟨id, -, found⟩ := bind_eq_some_iff.mp isRow
      exact ⟨id, found⟩
    | succ =>
      obtain ⟨_, -, above⟩ := bind_eq_some_iff.mp isRow
      obtain ⟨id, -, found⟩ := bind_eq_some_iff.mp above
      exact ⟨id, found⟩
  obtain ⟨id, found⟩ := found
  rw [findRow_id found]
  exact found

theorem visit_rowAbove : (displayRows entries).visit key (depth + 1) = rowAbove entries row :=
  visit_succ_of_some isRow

end

/-- The rows that have been visited so far, the latest first, none of them twice. -/
structure Reached (entries : List TranscriptEntryRow) (key : Option EntryId)
    (reached : List TranscriptEntryRow) : Prop where
  nodup : reached.Nodup
  nonempty : reached ≠ []
  visits : reached.reverse = (displayRows entries).walk reached.length key

variable {reached path : List TranscriptEntryRow} {tail period : Nat} {child : BranchRow}

section

variable (state : Reached entries key reached)
include state

theorem Reached.head :
    ∃ row rest, reached = row :: rest ∧ (displayRows entries).visit key rest.length = some row := by
  cases reached with
  | nil => exact absurd rfl state.nonempty
  | cons row rest =>
    refine ⟨row, rest, rfl, ?_⟩
    have visits := state.visits
    rw [length_cons] at visits
    rw [← walk_getElem? _ key (by omega : rest.length < rest.length + 1), ← visits]
    simp

theorem Reached.next {more : List TranscriptEntryRow}
    (goesOn : reachNext entries reached = some more) : Reached entries key more := by
  obtain ⟨_, _, rfl, isRow⟩ := state.head
  rw [reachNext, head?_cons, bind_some] at goesOn
  split at goesOn
  · cases goesOn
  · rename_i parent above
    split at goesOn
    · cases goesOn
    · rename_i fresh
      cases goesOn
      refine ⟨nodup_cons.mpr ⟨fresh, state.nodup⟩, cons_ne_nil _ _, ?_⟩
      have isParent := (visit_rowAbove isRow).trans above
      have visits := state.visits
      rw [length_cons] at visits
      rw [reverse_cons, visits, length_cons, length_cons, walk_succ_of_visit isParent]

theorem Reached.mem_visited (mem : row ∈ reached) :
    ∃ depth < reached.length, (displayRows entries).visit key depth = some row := by
  have listed := mem_reverse.mpr mem
  rw [state.visits] at listed
  obtain ⟨depth, within, isRow⟩ := mem_iff_getElem.mp listed
  have atMost := walk_length_le (displayRows entries) reached.length key
  refine ⟨depth, by omega, ?_⟩
  rw [← walk_getElem? _ key (by omega : depth < reached.length), getElem?_eq_getElem within, isRow]

theorem Reached.length_le : reached.length ≤ entries.length := by
  apply (state.nodup.subperm _).length_le
  intro row mem
  obtain ⟨_, -, isRow⟩ := state.mem_visited mem
  exact displayRows_listed entries _ row (visit_lookup isRow)

end

section

variable (isRow : (displayRows entries).visit key 0 = some row)
include isRow

theorem reachable_unfolds :
    Unfolds (reachNext entries) [row] (unfold (reachNext entries) entries.length [row]) ∧
      Reached entries key (reachable entries row) ∧
      reachNext entries (reachable entries row) = none := by
  have first : Reached entries key [row] := by
    refine ⟨nodup_singleton _, cons_ne_nil _ _, ?_⟩
    rw [length_singleton, walk_succ_of_visit isRow]
    rfl
  have keeps : ∀ reached more, Reached entries key reached →
      reachNext entries reached = some more → Reached entries key more :=
    fun _ _ state goesOn => state.next goesOn
  have unfolds : Unfolds (reachNext entries) [row]
      (unfold (reachNext entries) entries.length [row]) := by
    apply Unfolds.of_measure (fun reached => entries.length - reached.length)
      (Reached entries key) keeps _ first
      (by omega)
    intro reached more state goesOn
    have within := (state.next goesOn).length_le
    have grows : more.length = reached.length + 1 := by
      rw [reachNext] at goesOn
      split at goesOn
      · cases goesOn
      · split at goesOn
        · cases goesOn
        · rw [← Option.some.inj goesOn, length_cons]
    omega
  obtain ⟨final, isLast, ends⟩ := unfolds.last
  have isReachable : reachable entries row = final := by rw [reachable, isLast, getD_some]
  rw [isReachable]
  exact ⟨unfolds, unfold_invariant keeps _ first final (mem_of_getLast? isLast), ends⟩

theorem ancestryInvalid_of_climbs (climbs : (displayRows entries).Climbs key path) :
    ancestryInvalid entries row = false := by
  obtain ⟨-, state, ends⟩ := reachable_unfolds isRow
  obtain ⟨last, rest, isReachable, isLast⟩ := state.head
  rw [ancestryInvalid, isReachable, all_cons]
  cases above : rowAbove entries last with
  | none => rfl
  | some =>
    rw [isReachable, reachNext, head?_cons, bind_some, above] at ends
    dsimp only at ends
    split at ends
    · rename_i again
      rw [isReachable] at state
      obtain ⟨depth, within, isParent⟩ := state.mem_visited again
      apply absurd _ climbs.not_goesRound
      refine ⟨depth, rest.length + 1, within, isParent ▸ rfl, ?_⟩
      rw [isParent, visit_rowAbove isLast, above]
    · cases ends

theorem ancestryInvalid_of_rho (rho : (displayRows entries).Rho key tail period) :
    ancestryInvalid entries row := by
  obtain ⟨-, state, -⟩ := reachable_unfolds isRow
  rw [ancestryInvalid, List.all_eq_true]
  intro reached mem
  obtain ⟨depth, -, isReached⟩ := state.mem_visited mem
  rw [← visit_rowAbove isReached]
  exact rho.visit_isSome (depth + 1)

end

theorem unfolds_of_climbs {rest : List TranscriptEntryRow}
    (climbs : (displayRows entries).Climbs ((displayRows entries).parent row) rest) :
    Unfolds (rowAbove entries) row (row :: rest) := by
  induction rest generalizing row with
  | nil =>
    apply Unfolds.stop
    generalize isAbove : (displayRows entries).parent row = above at climbs
    rw [rowAbove, isAbove]
    cases climbs with
    | root => rfl
    | missing lost => exact lost
  | cons parent _ ih =>
    generalize isAbove : (displayRows entries).parent row = above at climbs
    cases climbs with
    | node found climbsRest =>
      apply Unfolds.step _ (ih climbsRest)
      rw [rowAbove, isAbove]
      exact found

theorem branchEntryIdsQuery_of_climbs (climbs : (displayRows entries).Climbs key path) :
    branchEntryIdsQuery entries key = .ok (path.map (·.node.id)).reverse := by
  have short := climbs.length_le (mem_of_climbs climbs)
  have whole := climbs
  cases climbs with
  | root => rfl
  | missing lost =>
    rw [branchEntryIdsQuery, bind_some, lost]
    rfl
  | @node id row rest found above =>
    have isRow : (displayRows entries).visit (some id) 0 = some row := found
    have valid := ancestryInvalid_of_climbs isRow whole
    rw [branchEntryIdsQuery, bind_some, found]
    dsimp only
    rw [valid, if_neg Bool.false_ne_true,
      (unfolds_of_climbs above).unfold_eq (Nat.le_succ_of_le short)]

theorem branchEntryIdsQuery_of_rho (rho : (displayRows entries).Rho key tail period) :
    branchEntryIdsQuery entries key = .error "transcript ancestry contains a cycle" := by
  obtain ⟨row, isRow⟩ := isSome_iff_exists.mp (rho.visit_isSome 0)
  rw [branchEntryIdsQuery, show key.bind (displayRows entries).lookup = some row from isRow]
  dsimp only
  rw [ancestryInvalid_of_rho isRow rho, if_pos rfl]

/-- The state of the page query so many rows above the leaf: the anchor stands below a power
of two, and the row is invalid where it is the anchor. -/
structure AtDepth (entries : List TranscriptEntryRow) (key : Option EntryId) (depth : Nat)
    (branch : BranchRow) : Prop where
  row : (displayRows entries).visit key depth = some branch.row
  count : branch.boundaryCount =
    ((displayRows entries).walk (depth + 1) key).countP TranscriptEntryRow.startsTurn
  anchor : ∃ anchorRow, (displayRows entries).visit key (ParentMap.anchorDepth depth) = some anchorRow ∧
    branch.cycleAnchorId = anchorRow.node.id
  power : branch.cyclePower = 2 ^ Nat.log 2 depth
  length : branch.cycleLength + branch.cyclePower = depth + 1
  invalid : branch.ancestryInvalid = true ↔ 0 < depth ∧
    (displayRows entries).visit key depth =
      (displayRows entries).visit key (ParentMap.anchorDepth depth)

theorem countP_walk_succ (isRow : (displayRows entries).visit key depth = some row) :
    ((displayRows entries).walk (depth + 1) key).countP TranscriptEntryRow.startsTurn =
      ((displayRows entries).walk depth key).countP TranscriptEntryRow.startsTurn +
        turnCount row := by
  rw [walk_succ_of_visit isRow, countP_append, countP_singleton, turnCount]

theorem atDepth_first (isRow : (displayRows entries).visit key 0 = some row) :
    AtDepth entries key 0 (firstBranchRow row) where
  row := isRow
  count := by
    rw [countP_walk_succ isRow]
    show turnCount row = 0 + turnCount row
    omega
  anchor := ⟨row, isRow, rfl⟩
  power := rfl
  length := rfl
  invalid := by
    constructor
    · nofun
    · intro positive
      exact absurd positive.1 (Nat.lt_irrefl 0)

theorem visit_eq_of_id {other : Nat} {otherRow : TranscriptEntryRow}
    (isRow : (displayRows entries).visit key depth = some row)
    (isOther : (displayRows entries).visit key other = some otherRow) :
    (row.node.id == otherRow.node.id) ↔
      (displayRows entries).visit key depth = (displayRows entries).visit key other := by
  rw [isRow, isOther, beq_iff_eq]
  constructor
  · intro same
    rw [← visit_lookup isRow, same, visit_lookup isOther]
  · intro same
    rw [Option.some.inj same]

theorem anchor_moves {power length : Nat} (isPower : power = 2 ^ Nat.log 2 depth)
    (isLength : length + power = depth + 1) :
    (power = length → Nat.log 2 (depth + 1) = Nat.log 2 depth + 1 ∧
        ParentMap.anchorDepth (depth + 1) = depth) ∧
      (power ≠ length → Nat.log 2 (depth + 1) = Nat.log 2 depth ∧
        ParentMap.anchorDepth (depth + 1) = ParentMap.anchorDepth depth) := by
  have below := Nat.lt_pow_succ_log_self (by omega : 1 < 2) depth
  constructor
  · intro moves
    have isLog : Nat.log 2 (depth + 1) = Nat.log 2 depth + 1 := by
      apply Nat.log_eq_of_pow_le_of_lt_pow
      · rw [Nat.pow_succ]
        omega
      · rw [Nat.pow_succ, Nat.pow_succ]
        omega
    refine ⟨isLog, ?_⟩
    rw [anchorDepth, isLog, Nat.pow_succ]
    omega
  · intro stays
    have isLog : Nat.log 2 (depth + 1) = Nat.log 2 depth := by
      apply Nat.log_eq_of_pow_le_of_lt_pow
      · omega
      · rw [Nat.pow_succ]
        omega
    refine ⟨isLog, ?_⟩
    rw [anchorDepth, isLog, anchorDepth]

theorem atDepth_next {parent : BranchRow} (state : AtDepth entries key depth child)
    (goesOn : nextBranchRow (displayRows entries) limit child = some parent) :
    AtDepth entries key (depth + 1) parent ∧ child.boundaryCount < limit ∧
      child.ancestryInvalid = false := by
  rw [nextBranchRow] at goesOn
  split at goesOn
  · rename_i going
    refine ⟨?_, going⟩
    split at goesOn
    · cases goesOn
    · rename_i row above
      cases goesOn
      have isRow : (displayRows entries).visit key (depth + 1) = some row :=
        (visit_rowAbove state.row).trans above
      obtain ⟨anchorRow, isAnchor, anchorId⟩ := state.anchor
      obtain ⟨whenMoves, whenStays⟩ := anchor_moves state.power state.length
      have count : child.boundaryCount + turnCount row =
          ((displayRows entries).walk (depth + 1 + 1) key).countP TranscriptEntryRow.startsTurn := by
        rw [countP_walk_succ isRow, state.count]
      have isLength := state.length
      have isPower := state.power
      by_cases moves : child.cyclePower = child.cycleLength
      · obtain ⟨isLog, isDepth⟩ := whenMoves moves
        simp only [moves, BEq.rfl, ↓reduceIte]
        constructor
        · exact isRow
        · exact count
        · exact ⟨child.row, by rw [isDepth]; exact state.row, rfl⟩
        · rw [isLog, Nat.pow_succ, ← isPower]
          dsimp only
          omega
        · dsimp only
          omega
        · rw [isDepth]
          simp only [visit_eq_of_id isRow state.row, Nat.zero_lt_succ, true_and]
      · obtain ⟨isLog, isDepth⟩ := whenStays moves
        have apart := beq_eq_false_iff_ne.mpr moves
        simp only [apart, Bool.false_eq_true, ↓reduceIte]
        constructor
        · exact isRow
        · exact count
        · exact ⟨anchorRow, by rw [isDepth]; exact isAnchor, anchorId⟩
        · rw [isLog]
          exact isPower
        · dsimp only
          omega
        · rw [isDepth]
          simp only [anchorId, visit_eq_of_id isRow isAnchor, Nat.zero_lt_succ, true_and]
  · cases goesOn

theorem nextBranchRow_isSome (state : AtDepth entries key depth child)
    (goesOn : child.boundaryCount < limit) (valid : child.ancestryInvalid = false)
    (above : ((displayRows entries).visit key (depth + 1)).isSome) :
    ∃ parent, nextBranchRow (displayRows entries) limit child = some parent := by
  obtain ⟨_, isRow⟩ := isSome_iff_exists.mp above
  rw [visit_rowAbove state.row] at isRow
  obtain ⟨parent, isNext, -⟩ := nextBranchRow_of_some goesOn valid isRow
  exact ⟨parent, isNext⟩

/-- The fuel suffices: the recursive query comes to an end. -/
theorem branchQuery_unfolds (bound : Nat) (isRow : (displayRows entries).visit key 0 = some row)
    (within : bound ≤ 3 * entries.length)
    (stops : ∀ branch, AtDepth entries key bound branch → branch.ancestryInvalid = false →
      (displayRows entries).visit key (bound + 1) = none) :
    Unfolds (nextBranchRow (displayRows entries) limit) (firstBranchRow row)
      (unfold (nextBranchRow (displayRows entries) limit) (3 * entries.length)
        (firstBranchRow row)) := by
  have next : ∀ child parent, (∃ depth ≤ bound, AtDepth entries key depth child) →
      nextBranchRow (displayRows entries) limit child = some parent →
      ∃ depth < bound, AtDepth entries key depth child ∧ AtDepth entries key (depth + 1) parent := by
    intro child parent known goesOn
    obtain ⟨depth, atMost, state⟩ := known
    obtain ⟨stateAbove, -, valid⟩ := atDepth_next state goesOn
    refine ⟨depth, ?_, state, stateAbove⟩
    rcases Nat.lt_or_eq_of_le atMost with below | rfl
    · exact below
    · have isAbove := stateAbove.row
      rw [stops child state valid] at isAbove
      cases isAbove
  apply Unfolds.of_measure (fun branch => bound - (branch.cycleLength + branch.cyclePower - 1))
    (fun branch => ∃ depth ≤ bound, AtDepth entries key depth branch)
  · intro child parent known goesOn
    obtain ⟨depth, below, -, stateAbove⟩ := next child parent known goesOn
    exact ⟨depth + 1, below, stateAbove⟩
  · intro child parent known goesOn
    obtain ⟨depth, below, state, stateAbove⟩ := next child parent known goesOn
    have length := state.length
    have lengthAbove := stateAbove.length
    omega
  · exact ⟨0, Nat.zero_le _, atDepth_first isRow⟩
  · omega

section

variable (rho : (displayRows entries).Rho key tail period)
include rho

theorem invalid_at_meetingDepth {branch : BranchRow}
    (state : AtDepth entries key (ParentMap.meetingDepth tail period) branch) :
    branch.ancestryInvalid := by
  rw [state.invalid]
  have positive := rho.positive
  refine ⟨?_, rho.meets⟩
  rw [meetingDepth]
  omega

theorem meetingDepth_within : ParentMap.meetingDepth tail period ≤ 3 * entries.length := by
  have distinct : ((displayRows entries).walk (tail + period) key).Nodup := by
    rw [nodup_iff_getElem?_ne_getElem?]
    intro depth other before inWalk
    have atMost := walk_length_le (displayRows entries) (tail + period) key
    rw [walk_getElem? _ key (by omega), walk_getElem? _ key (by omega)]
    exact rho.distinct depth other before (by omega)
  have length : ((displayRows entries).walk (tail + period) key).length = tail + period := by
    apply Nat.le_antisymm (walk_length_le _ _ _)
    by_contra short
    have last := rho.visit_isSome (tail + period - 1)
    rw [← walk_getElem? _ key (by omega : tail + period - 1 < tail + period),
      getElem?_eq_none (by omega)] at last
    cases last
  have few : tail + period ≤ entries.length := by
    rw [← length]
    apply (distinct.subperm _).length_le
    intro row mem
    obtain ⟨own, found⟩ := mem_walk mem
    exact displayRows_listed entries own row found
  have bound := rho.meetingDepth_le
  omega

end

theorem any_invalid_iff (limit : Nat) (rho : (displayRows entries).Rho key tail period)
    (state : AtDepth entries key depth child) (below : depth ≤ ParentMap.meetingDepth tail period)
    {fuel : Nat} (enough : ParentMap.meetingDepth tail period ≤ depth + fuel) :
    (unfold (nextBranchRow (displayRows entries) limit) fuel child).any (·.ancestryInvalid) ↔
      depth = ParentMap.meetingDepth tail period ∨
        ((displayRows entries).walk (ParentMap.meetingDepth tail period) key).countP
          TranscriptEntryRow.startsTurn < limit := by
  induction fuel generalizing depth child with
  | zero =>
    obtain rfl : depth = meetingDepth tail period := by omega
    simp [unfold, invalid_at_meetingDepth rho state]
  | succ _ ih =>
    rcases Nat.lt_or_eq_of_le below with before | rfl
    · have valid : child.ancestryInvalid = false := by
        rw [← Bool.not_eq_true, state.invalid]
        intro meets
        exact rho.not_meets_before meets.1 before meets.2
      by_cases goesOn : child.boundaryCount < limit
      · obtain ⟨parent, isNext⟩ :=
          nextBranchRow_isSome state goesOn valid (rho.visit_isSome (depth + 1))
        rw [unfold_of_some isNext, any_cons, valid, Bool.false_or,
          ih (atDepth_next state isNext).1 before (by omega)]
        constructor
        · intro reports
          right
          rcases reports with isDepth | notFull
          · rwa [state.count, isDepth] at goesOn
          · exact notFull
        · intro reports
          rcases reports with isDepth | notFull
          · omega
          · exact .inr notFull
      · have ends : nextBranchRow (displayRows entries) limit child = none := by
          rw [nextBranchRow, if_neg (fun going => goesOn going.1)]
        rw [unfold_of_none ends]
        have atMost : depth + 1 ≤ meetingDepth tail period := before
        have more := (walk_prefix_walk (displayRows entries) key atMost).sublist.countP_le
          (p := TranscriptEntryRow.startsTurn)
        rw [← state.count] at more
        simp [valid]
        omega
    · rw [unfold]
      simp [invalid_at_meetingDepth rho state]

/-- Both queries end. Each reports corrupt ancestry or returns no entry twice, and both report
ancestry that goes round. -/
structure Reported (entries : List TranscriptEntryRow) (activeLeafId before : Option EntryId)
    (limit : Nat) : Prop where
  pageEnds : ∀ row, (displayRows entries).visit (before <|> activeLeafId) 0 = some row →
    Unfolds (nextBranchRow (displayRows entries) limit) (firstBranchRow row)
      (branchQuery entries limit (before <|> activeLeafId))
  branchEnds : ∀ row, (displayRows entries).visit (before <|> activeLeafId) 0 = some row →
    (∃ states, Unfolds (reachNext entries) [row] states) ∧
      (ancestryInvalid entries row = false → ∃ path, Unfolds (rowAbove entries) row path)
  page : activeBranchTurnCardRows entries activeLeafId before limit =
      .error "transcript ancestry contains a cycle" ∨
    ∃ rows, activeBranchTurnCardRows entries activeLeafId before limit = .ok rows ∧
      (rows.map (·.id)).Nodup
  branch : branchEntryIdsQuery entries (before <|> activeLeafId) =
      .error "transcript ancestry contains a cycle" ∨
    ∃ ids, branchEntryIdsQuery entries (before <|> activeLeafId) = .ok ids ∧ ids.Nodup
  cyclic : (displayRows entries).GoesRound (before <|> activeLeafId) →
    activeBranchTurnCardRows entries activeLeafId before limit =
        .error "transcript ancestry contains a cycle" ∧
      branchEntryIdsQuery entries (before <|> activeLeafId) =
        .error "transcript ancestry contains a cycle"

variable {activeLeafId before : Option EntryId}

theorem branchQuery_of_visit (isRow : (displayRows entries).visit key 0 = some row) :
    branchQuery entries limit key =
      unfold (nextBranchRow (displayRows entries) limit) (3 * entries.length) (firstBranchRow row) := by
  rw [branchQuery, show key.bind (displayRows entries).lookup = some row from isRow]

theorem activeBranchTurnCardRows_error_iff
    (rho : (displayRows entries).Rho (before <|> activeLeafId) tail period) :
    activeBranchTurnCardRows entries activeLeafId before limit =
        .error "transcript ancestry contains a cycle" ↔
      ((displayRows entries).walk (ParentMap.meetingDepth tail period)
        (before <|> activeLeafId)).countP TranscriptEntryRow.startsTurn < limit := by
  obtain ⟨_, isRow⟩ := isSome_iff_exists.mp (rho.visit_isSome 0)
  have positive := rho.positive
  have above : 0 < meetingDepth tail period := by
    rw [meetingDepth]
    omega
  have reports := any_invalid_iff limit rho (atDepth_first isRow) (Nat.zero_le _)
    (by have within := meetingDepth_within rho; omega :
      meetingDepth tail period ≤ 0 + 3 * entries.length)
  rw [← branchQuery_of_visit isRow] at reports
  rw [activeBranchTurnCardRows, cardRows_eq]
  constructor
  · intro isError
    split at isError
    · rename_i invalid
      rcases reports.mp invalid with isDepth | notFull
      · omega
      · exact notFull
    · cases isError
  · intro notFull
    rw [if_pos (reports.mpr (.inr notFull))]

theorem reported_of_climbs (positive : 1 ≤ limit)
    (climbs : (displayRows entries).Climbs (before <|> activeLeafId) path) :
    Reported entries activeLeafId before limit := by
  have distinct := pathIds_nodup climbs
  constructor
  · intro row isRow
    rw [branchQuery_of_visit isRow]
    have short := climbs.length_le (mem_of_climbs climbs)
    apply branchQuery_unfolds path.length isRow (by omega)
    intro branch state
    rw [climbs.visit_eq, getElem?_eq_none (by omega)]
    exact fun _ => rfl
  · intro row isRow
    refine ⟨⟨_, (reachable_unfolds isRow).1⟩, ?_⟩
    intro _
    generalize isKey : (before <|> activeLeafId) = key at climbs isRow
    cases climbs with
    | root => cases isRow
    | missing lost =>
      rw [visit, bind_some, lost] at isRow
      cases isRow
    | node found above =>
      rw [visit, bind_some, found] at isRow
      cases isRow
      exact ⟨_, unfolds_of_climbs above⟩
  · right
    obtain ⟨_, _, splits, -, read⟩ := activeBranchTurnCardRows_of_climbs positive climbs
    refine ⟨_, read, ?_⟩
    rw [branchRows_ids, nodup_reverse]
    rw [splits.whole, map_append] at distinct
    exact (nodup_append'.mp distinct).1
  · exact .inr ⟨_, branchEntryIdsQuery_of_climbs climbs, nodup_reverse.mpr distinct⟩
  · intro goesRound
    exact absurd goesRound climbs.not_goesRound

theorem reported_of_rho (rho : (displayRows entries).Rho (before <|> activeLeafId) tail period)
    (notFull : ((displayRows entries).walk (ParentMap.meetingDepth tail period)
      (before <|> activeLeafId)).countP TranscriptEntryRow.startsTurn < limit) :
    Reported entries activeLeafId before limit := by
  have pageError := (activeBranchTurnCardRows_error_iff rho).mpr notFull
  have branchError := branchEntryIdsQuery_of_rho rho
  refine ⟨?_, ?_, .inl pageError, .inl branchError, fun _ => ⟨pageError, branchError⟩⟩
  · intro row isRow
    rw [branchQuery_of_visit isRow]
    apply branchQuery_unfolds _ isRow (meetingDepth_within rho)
    intro branch state valid
    rw [invalid_at_meetingDepth rho state] at valid
    cases valid
  · intro row isRow
    refine ⟨⟨_, (reachable_unfolds isRow).1⟩, ?_⟩
    intro valid
    rw [ancestryInvalid_of_rho isRow rho] at valid
    cases valid

/-- Corrupt ancestry is reported if and only if there is none, or the page has room for the
turns up to the depth at which a walker on the cycle meets its anchor. -/
theorem reported_iff (positive : 1 ≤ limit) :
    Reported entries activeLeafId before limit ↔
      ¬ (displayRows entries).GoesRound (before <|> activeLeafId) ∨
        ∃ tail period, (displayRows entries).Rho (before <|> activeLeafId) tail period ∧
          ((displayRows entries).walk (ParentMap.meetingDepth tail period)
            (before <|> activeLeafId)).countP TranscriptEntryRow.startsTurn < limit := by
  rcases climbs_or_rho (displayRows_listed entries) (before <|> activeLeafId) with
    ⟨path, climbs, -⟩ | ⟨tail, period, rho, -⟩
  · constructor
    · intro _
      exact .inl climbs.not_goesRound
    · intro _
      exact reported_of_climbs positive climbs
  · constructor
    · intro reported
      obtain ⟨pageError, -⟩ := reported.cyclic rho.goesRound
      exact .inr ⟨tail, period, rho, (activeBranchTurnCardRows_error_iff rho).mp pageError⟩
    · intro condition
      rcases condition with acyclic | ⟨tail, period, rho, notFull⟩
      · exact absurd rho.goesRound acyclic
      · exact reported_of_rho rho notFull

/-- The start of a turn below an answer below a message, which is below the start. -/
def ringRows : List TranscriptEntryRow :=
  [⟨⟨"start", some "message", 1, .turnStarted 1, []⟩, 1⟩,
    ⟨⟨"message", some "answer", 2, .userMessage (.text "hi"), []⟩, 2⟩,
    ⟨⟨"answer", some "start", 3, .assistantMessage ⟨[]⟩, []⟩, 3⟩]

theorem ringRows_reported_iff :
    Reported ringRows (some "start") none 2 ↔
      ¬ (displayRows ringRows).GoesRound (none <|> some "start") ∨
        ∃ tail period, (displayRows ringRows).Rho (none <|> some "start") tail period ∧
          ((displayRows ringRows).walk (ParentMap.meetingDepth tail period)
            (none <|> some "start")).countP TranscriptEntryRow.startsTurn < 2 :=
  reported_iff (by decide)

/-- A page of two turns of the ring is returned, with its start twice. -/
theorem ringRows_page : ¬ ∀ entries activeLeafId before limit, 1 ≤ limit →
    Reported entries activeLeafId before limit := by
  intro reported
  have read : (activeBranchTurnCardRows ringRows (some "start") none 2).map
      (fun rows => rows.map (·.id)) = .ok ["start", "answer", "message", "start"] := by decide
  rcases (reported ringRows (some "start") none 2 (by decide)).page with isError | ⟨rows, isRows, nodup⟩
  · rw [isError] at read
    cases read
  · rw [isRows] at read
    have ids := Except.ok.inj read
    rw [show rows.map (·.id) = _ from ids] at nodup
    revert nodup
    decide

end PiRelay.Store
