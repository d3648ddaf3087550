import PiRelay.AgentStore.TurnCards
import PiRelay.Library.Recursion

/-! Pages of turn cards. A page goes down from its leaf until it has as many turns as it may
have, and the page before it goes on where it stops. -/
namespace PiRelay.Store

open AgentVocab Session List Option
open Library (ParentMap unfold unfold_of_none unfold_of_some)

variable (entries : List TranscriptEntryRow)

def displayRows : ParentMap EntryId TranscriptEntryRow where
  lookup id := entries.find? (·.node.id == id)
  parent row := displayParentId row.node

variable (row : TranscriptEntryRow)

def TranscriptEntryRow.startsTurn : Bool :=
  itemType row.node.item = .turnStarted

def TranscriptEntryRow.isAssistant : Bool :=
  itemType row.node.item = .assistantMessage

/-- The branch of a page, from its leaf. It ends with the turn that reaches the limit. -/
def branchPage (tree : ParentMap EntryId TranscriptEntryRow) (limit : Nat) :
    Nat → Nat → Option EntryId → List TranscriptEntryRow
  | 0, _, _ => []
  | fuel + 1, boundaryCount, key =>
    match key.bind tree.lookup with
    | none => []
    | some row =>
      let boundaryCount := if row.startsTurn then boundaryCount + 1 else boundaryCount
      row ::
        if boundaryCount < limit then branchPage tree limit fuel boundaryCount (tree.parent row)
        else []

variable (branch : List TranscriptEntryRow)

def cardOrdinal (depth : Nat) : Nat :=
  (branch.drop depth).countP TranscriptEntryRow.startsTurn

/-- The last assistant message of a turn. -/
def terminalAssistant (ordinal : Nat) : Option Nat :=
  ((List.range branch.length).filter fun depth =>
    branch[depth]?.any (·.isAssistant) && cardOrdinal branch depth = ordinal).min?

/-- Of the assistant messages of a turn only the last one is read whole. -/
def bodyItem (depth : Nat) (row : TranscriptEntryRow) : Option TranscriptItem :=
  if itemType row.node.item = .userMessage ∨ itemType row.node.item = .daemonToolObservation ∨
      terminalAssistant branch (cardOrdinal branch depth) = some depth then
    some row.node.item
  else none

def cardRows : Except String (List TurnCardRow) :=
  branch.zipIdx.reverse.mapM fun (row, depth) => turnCardRow row (bodyItem branch depth row)

/-- A row of the branch with the state of its cycle detection: the id of an anchor, and how
far the branch has gone from it. -/
structure BranchRow where
  row : TranscriptEntryRow
  boundaryCount : Nat
  cycleAnchorId : EntryId
  cyclePower : Nat
  cycleLength : Nat
  ancestryInvalid : Bool

def turnCount : Nat := if row.startsTurn then 1 else 0

def firstBranchRow : BranchRow where
  row := row
  boundaryCount := turnCount row
  cycleAnchorId := row.node.id
  cyclePower := 1
  cycleLength := 0
  ancestryInvalid := false

/-- The row above, unless the page is full or the anchor has been met. The anchor moves to
the child when the branch has gone a power of two away from it. -/
def nextBranchRow (tree : ParentMap EntryId TranscriptEntryRow) (limit : Nat) (child : BranchRow) :
    Option BranchRow :=
  if child.boundaryCount < limit ∧ child.ancestryInvalid = false then
    match (tree.parent child.row).bind tree.lookup with
    | none => none
    | some parent =>
      let moves := child.cyclePower == child.cycleLength
      let anchorId := if moves then child.row.node.id else child.cycleAnchorId
      some
        { row := parent
          boundaryCount := child.boundaryCount + turnCount parent
          cycleAnchorId := anchorId
          cyclePower := if moves then child.cyclePower * 2 else child.cyclePower
          cycleLength := if moves then 1 else child.cycleLength + 1
          ancestryInvalid := parent.node.id == anchorId }
  else none

/-- The branch of a page, from its leaf. The recursion of the query has no bound of its own;
three rounds for each entry are enough for it. -/
def branchQuery (limit : Nat) (leafId : Option EntryId) : List BranchRow :=
  match leafId.bind (displayRows entries).lookup with
  | none => []
  | some row =>
    unfold (nextBranchRow (displayRows entries) limit) (3 * entries.length) (firstBranchRow row)

def activeBranchTurnCardRows (activeLeafId : Option EntryId)
    (beforeEntryId : Option EntryId) (limit : Nat) : Except String (List TurnCardRow) :=
  let branch := branchQuery entries limit (beforeEntryId <|> activeLeafId)
  if branch.any (·.ancestryInvalid) then .error "transcript ancestry contains a cycle"
  else cardRows (branch.map (·.row))

structure TurnCardPage where
  nextBeforeEntryId : Option EntryId
  cards : List TurnCardRecord

def turnCardPage (rows : List TurnCardRow) : TurnCardPage where
  nextBeforeEntryId := rows.head?.bind (·.displayParentId)
  cards := turnCardsFromRows rows

/-- The rows of all pages from a cursor on, as a reader follows them to the last one. -/
inductive Pages (entries : List TranscriptEntryRow) (activeLeafId : Option EntryId)
    (limit : Nat) : Option EntryId → List (List TurnCardRow) → Prop where
  | last {before : Option EntryId} {rows : List TurnCardRow}
      (read : activeBranchTurnCardRows entries activeLeafId before limit = .ok rows)
      (ends : (turnCardPage rows).nextBeforeEntryId = none) :
      Pages entries activeLeafId limit before [rows]
  | next {before : Option EntryId} {rows : List TurnCardRow} {cursor : EntryId}
      {pages : List (List TurnCardRow)}
      (read : activeBranchTurnCardRows entries activeLeafId before limit = .ok rows)
      (continues : (turnCardPage rows).nextBeforeEntryId = some cursor)
      (later : Pages entries activeLeafId limit (some cursor) pages) :
      Pages entries activeLeafId limit before (rows :: pages)

variable {tree : ParentMap EntryId TranscriptEntryRow} {limit boundaryCount : Nat}
  {key : Option EntryId} {path : List TranscriptEntryRow}

/-- A page is the first part of the path. Where it does not reach the end, it stops at a turn
and the rest of the path goes on from there. -/
structure SplitsAt (tree : ParentMap EntryId TranscriptEntryRow)
    (path page older : List TranscriptEntryRow) : Prop where
  whole : path = page ++ older
  cut : older = [] ∨ ∃ row, page.getLast? = some row ∧ row.startsTurn = true
  climbs : ∀ row, page.getLast? = some row → tree.Climbs (tree.parent row) older
  nonempty : page = [] → path = []

variable {row : TranscriptEntryRow} {child : BranchRow}

theorem SplitsAt.cons {page older rest : List TranscriptEntryRow}
    (splits : SplitsAt tree rest page older) (above : tree.Climbs (tree.parent row) rest) :
    SplitsAt tree (row :: rest) (row :: page) older := by
  cases page with
  | nil =>
    obtain rfl := splits.nonempty rfl
    obtain rfl : [] = older := splits.whole
    refine ⟨rfl, .inl rfl, ?_, nofun⟩
    intro last isLast
    cases isLast
    exact above
  | cons first later =>
    have sameLast : (row :: first :: later).getLast? = (first :: later).getLast? :=
      getLast?_cons_cons
    refine ⟨congrArg (row :: ·) splits.whole, ?_, ?_, nofun⟩
    · rw [sameLast]
      exact splits.cut
    · rw [sameLast]
      exact splits.climbs

theorem branchPage_splits (climbs : tree.Climbs key path) {fuel : Nat}
    (enough : path.length < fuel) (below : boundaryCount < limit) :
    ∃ older, SplitsAt tree path (branchPage tree limit fuel boundaryCount key) older ∧
      boundaryCount + (branchPage tree limit fuel boundaryCount key).countP
        TranscriptEntryRow.startsTurn ≤ limit := by
  induction climbs generalizing fuel boundaryCount with
  | root =>
    obtain ⟨fuel, rfl⟩ : ∃ less, fuel = less + 1 := Nat.exists_eq_add_one.mpr enough
    exact ⟨[], ⟨rfl, .inl rfl, nofun, fun _ => rfl⟩, Nat.le_of_lt below⟩
  | missing lost =>
    obtain ⟨fuel, rfl⟩ : ∃ less, fuel = less + 1 := Nat.exists_eq_add_one.mpr enough
    rw [branchPage, bind_some, lost]
    exact ⟨[], ⟨rfl, .inl rfl, nofun, fun _ => rfl⟩, Nat.le_of_lt below⟩
  | @node key row rest found above ih =>
    obtain ⟨fuel, rfl⟩ : ∃ less, fuel = less + 1 :=
      Nat.exists_eq_add_one.mpr (Nat.lt_of_le_of_lt (Nat.zero_le _) enough)
    have enoughAbove : rest.length < fuel := Nat.lt_of_succ_lt_succ enough
    rw [branchPage, bind_some, found]
    cases starts : row.startsTurn with
    | false =>
      obtain ⟨older, splits, few⟩ := ih enoughAbove below
      simp only [starts, Bool.false_eq_true, if_false, below, if_true]
      refine ⟨older, splits.cons above, ?_⟩
      rw [countP_cons_of_neg (by simp [starts])]
      exact few
    | true =>
      simp only [starts, if_true]
      by_cases more : boundaryCount + 1 < limit
      · obtain ⟨older, splits, few⟩ := ih enoughAbove more
        rw [if_pos more]
        refine ⟨older, splits.cons above, ?_⟩
        rw [countP_cons_of_pos starts]
        omega
      · rw [if_neg more]
        refine ⟨rest, ⟨rfl, .inr ⟨row, rfl, starts⟩, ?_, nofun⟩, ?_⟩
        · intro last isLast
          cases isLast
          exact above
        · rw [countP_cons_of_pos starts, countP_nil]
          omega

variable {newer older : List TranscriptEntryRow} {depth : Nat}

theorem terminalAssistant_iff {branch : List TranscriptEntryRow} (inside : depth < branch.length) :
    terminalAssistant branch (cardOrdinal branch depth) = some depth ↔
      branch[depth]?.any (·.isAssistant) ∧ ∀ other < depth,
        branch[other]?.any (·.isAssistant) →
          cardOrdinal branch other ≠ cardOrdinal branch depth := by
  rw [terminalAssistant, min?_eq_some_iff]
  simp only [mem_filter, mem_range, Bool.and_eq_true, decide_eq_true_eq]
  constructor
  · rintro ⟨⟨-, isAssistant, -⟩, least⟩
    refine ⟨isAssistant, fun other before isOther same => ?_⟩
    have atMost := least other ⟨by omega, isOther, same⟩
    omega
  · rintro ⟨isAssistant, alone⟩
    refine ⟨⟨inside, isAssistant, trivial⟩, fun other ⟨_, isOther, same⟩ => ?_⟩
    by_contra before
    exact alone other (by omega) isOther same

theorem cardOrdinal_older (depth : Nat) :
    cardOrdinal (newer ++ older) (newer.length + depth) = cardOrdinal older depth := by
  rw [cardOrdinal, drop_length_add_append, cardOrdinal]

theorem cardOrdinal_newer (inside : depth ≤ newer.length) :
    cardOrdinal (newer ++ older) depth =
      cardOrdinal newer depth + older.countP TranscriptEntryRow.startsTurn := by
  rw [cardOrdinal, drop_append_of_le_length inside, countP_append, cardOrdinal]

variable (branch : List TranscriptEntryRow)

theorem cardOrdinal_le (depth : Nat) :
    cardOrdinal branch depth ≤ branch.countP TranscriptEntryRow.startsTurn :=
  (drop_sublist depth branch).countP_le

theorem cardOrdinal_pos (inside : depth < newer.length)
    (cut : ∃ row, newer.getLast? = some row ∧ row.startsTurn) : 0 < cardOrdinal newer depth := by
  obtain ⟨row, isLast, starts⟩ := cut
  rw [cardOrdinal, countP_pos_iff]
  refine ⟨row, ?_, starts⟩
  have last : (newer.drop depth).getLast? = some row := by
    rw [getLast?_drop, if_neg (by omega), isLast]
  exact mem_of_getLast? last

theorem getElem?_older (depth : Nat) : (newer ++ older)[newer.length + depth]? = older[depth]? := by
  rw [getElem?_append_right (Nat.le_add_right _ _), Nat.add_sub_cancel_left]

theorem terminalAssistant_older (inside : depth < older.length)
    (cut : ∃ row, newer.getLast? = some row ∧ row.startsTurn) :
    terminalAssistant (newer ++ older) (cardOrdinal (newer ++ older) (newer.length + depth)) =
        some (newer.length + depth) ↔
      terminalAssistant older (cardOrdinal older depth) = some depth := by
  have insideBoth : newer.length + depth < (newer ++ older).length := by
    rw [length_append]
    omega
  rw [terminalAssistant_iff insideBoth, terminalAssistant_iff inside, getElem?_older,
    cardOrdinal_older]
  refine and_congr_right fun _ => ⟨fun alone other before isOther => ?_,
    fun alone other before isOther => ?_⟩
  · have apart := alone (newer.length + other) (by omega) (by rw [getElem?_older]; exact isOther)
    rwa [cardOrdinal_older] at apart
  · rcases Nat.lt_or_ge other newer.length with inNewer | inOlder
    · have positive := cardOrdinal_pos inNewer cut
      have atMost := cardOrdinal_le older depth
      rw [cardOrdinal_newer (Nat.le_of_lt inNewer)]
      omega
    · obtain ⟨later, rfl⟩ := Nat.exists_eq_add_of_le inOlder
      rw [getElem?_older] at isOther
      rw [cardOrdinal_older]
      exact alone later (by omega) isOther

theorem terminalAssistant_newer (inside : depth < newer.length) :
    terminalAssistant (newer ++ older) (cardOrdinal (newer ++ older) depth) = some depth ↔
      terminalAssistant newer (cardOrdinal newer depth) = some depth := by
  have insideBoth : depth < (newer ++ older).length := by
    rw [length_append]
    omega
  rw [terminalAssistant_iff insideBoth, terminalAssistant_iff inside,
    getElem?_append_left inside, cardOrdinal_newer (Nat.le_of_lt inside)]
  refine and_congr_right fun _ => forall_congr' fun other => forall_congr' fun before => ?_
  rw [getElem?_append_left (by omega), cardOrdinal_newer (by omega)]
  refine imp_congr_right fun _ => ?_
  omega

def shownEntry (branch : List TranscriptEntryRow) (depth : Nat) (row : TranscriptEntryRow) :
    Option TranscriptEntryRecord :=
  match itemType row.node.item with
  | .userMessage | .daemonToolObservation => some (entryRecord row row.node.item)
  | .assistantMessage =>
    if terminalAssistant branch (cardOrdinal branch depth) = some depth then
      some (entryRecord row row.node.item)
    else none
  | _ => none

theorem rowEntry_bodyItem (depth : Nat) (row : TranscriptEntryRow) :
    rowEntry row (bodyItem branch depth row) = .ok (shownEntry branch depth row) := by
  simp only [rowEntry, bodyItem, shownEntry]
  cases itemType row.node.item <;>
    by_cases terminal : terminalAssistant branch (cardOrdinal branch depth) = some depth <;>
    simp [terminal]

def branchRows (branch : List TranscriptEntryRow) : List TurnCardRow :=
  (branch.zipIdx.map fun (row, depth) => cardRow row (shownEntry branch depth row)).reverse

theorem cardRows_eq : cardRows branch = .ok (branchRows branch) := by
  have each : (fun (entry : TranscriptEntryRow × Nat) =>
      turnCardRow entry.1 (bodyItem branch entry.2 entry.1)) =
        fun entry => pure (cardRow entry.1 (shownEntry branch entry.2 entry.1)) := by
    funext entry
    rw [turnCardRow, rowEntry_bodyItem]
    rfl
  change branch.zipIdx.reverse.mapM (fun entry =>
    turnCardRow entry.1 (bodyItem branch entry.2 entry.1)) = _
  rw [each, mapM_pure, branchRows, ← map_reverse]
  rfl

theorem branchRows_append
    (cut : older = [] ∨ ∃ row, newer.getLast? = some row ∧ row.startsTurn) :
    branchRows (newer ++ older) = branchRows older ++ branchRows newer := by
  rcases cut with rfl | cut
  · simp [branchRows]
  · have olderRows : (older.zipIdx newer.length).map (fun entry =>
        cardRow entry.1 (shownEntry (newer ++ older) entry.2 entry.1)) =
          older.zipIdx.map fun entry => cardRow entry.1 (shownEntry older entry.2 entry.1) := by
      rw [zipIdx_eq_map_add, List.map_map]
      refine map_congr_left fun entry mem => ?_
      have inside := (List.getElem?_eq_some_iff.mp (mem_zipIdx_iff_getElem?.mp mem)).1
      change cardRow entry.1 (shownEntry (newer ++ older) (newer.length + entry.2) entry.1) = _
      rw [shownEntry, shownEntry]
      simp only [terminalAssistant_older inside cut]
    have newerRows : newer.zipIdx.map (fun entry =>
        cardRow entry.1 (shownEntry (newer ++ older) entry.2 entry.1)) =
          newer.zipIdx.map fun entry => cardRow entry.1 (shownEntry newer entry.2 entry.1) := by
      refine map_congr_left fun entry mem => ?_
      have inside := (List.getElem?_eq_some_iff.mp (mem_zipIdx_iff_getElem?.mp mem)).1
      rw [shownEntry, shownEntry]
      simp only [terminalAssistant_newer inside]
    rw [branchRows, zipIdx_append, map_append, reverse_append, Nat.zero_add]
    rw [olderRows, newerRows]
    rfl

theorem branchRows_ids : (branchRows branch).map (·.id) = (branch.map (·.node.id)).reverse := by
  have first := zipIdx_map_fst 0 branch
  rw [branchRows, map_reverse, List.map_map]
  change (branch.zipIdx.map ((·.node.id) ∘ Prod.fst)).reverse = _
  rw [← List.map_map, first]

theorem branchRows_countP :
    (branchRows branch).countP TurnCardRow.startsTurn =
      branch.countP TranscriptEntryRow.startsTurn := by
  have first := zipIdx_map_fst 0 branch
  rw [branchRows, countP_reverse, countP_map]
  change branch.zipIdx.countP (TranscriptEntryRow.startsTurn ∘ Prod.fst) = _
  rw [← countP_map, first]

theorem cardRow_displayParentId (row : TranscriptEntryRow) (entry : Option TranscriptEntryRecord) :
    (cardRow row entry).displayParentId = displayParentId row.node := by
  rw [TurnCardRow.displayParentId, displayParentId, cardRow]
  cases row.node.item <;> rfl

theorem branchRows_head? {branch : List TranscriptEntryRow} (isLast : branch.getLast? = some row) :
    ∃ entry, (branchRows branch).head? = some (cardRow row entry) := by
  rw [branchRows, head?_reverse, getLast?_map, getLast?_zipIdx, isLast]
  exact ⟨_, rfl⟩

variable {entries : List TranscriptEntryRow} {activeLeafId before : Option EntryId}

theorem findRow_id {id : EntryId} (found : (displayRows entries).lookup id = some row) :
    row.node.id = id := by
  simpa using find?_some found

theorem mem_of_climbs (climbs : (displayRows entries).Climbs key path) :
    ∀ row ∈ path, row ∈ entries := by
  intro row mem
  exact mem_of_find?_eq_some (climbs.lookup_of_mem (fun _ _ => findRow_id) row mem)

theorem nextBranchRow_of_none
    (ends : ((displayRows entries).parent child.row).bind (displayRows entries).lookup = none) :
    nextBranchRow (displayRows entries) limit child = none := by
  rw [nextBranchRow, ends]
  split <;> rfl

theorem nextBranchRow_of_some (goesOn : child.boundaryCount < limit)
    (valid : child.ancestryInvalid = false)
    (above : ((displayRows entries).parent child.row).bind (displayRows entries).lookup = some row) :
    ∃ parent, nextBranchRow (displayRows entries) limit child = some parent ∧ parent.row = row ∧
      parent.boundaryCount = child.boundaryCount + turnCount row ∧
      (parent.cycleAnchorId = child.cycleAnchorId ∨ parent.cycleAnchorId = child.row.node.id) ∧
      parent.ancestryInvalid = (row.node.id == parent.cycleAnchorId) := by
  rw [nextBranchRow, if_pos ⟨goesOn, valid⟩, above]
  refine ⟨_, rfl, rfl, rfl, ?_, rfl⟩
  split
  · exact .inr rfl
  · exact .inl rfl

theorem branchPage_of_found {id : EntryId} (found : tree.lookup id = some row) (fuel : Nat) :
    branchPage tree limit (fuel + 1) boundaryCount (some id) =
      row :: (if boundaryCount + turnCount row < limit then
        branchPage tree limit fuel (boundaryCount + turnCount row) (tree.parent row) else []) := by
  have counted : (if row.startsTurn then boundaryCount + 1 else boundaryCount) =
      boundaryCount + turnCount row := by
    rw [turnCount]
    split <;> rfl
  rw [branchPage, bind_some, found]
  simp only [counted]

theorem unfold_nextBranchRow (climbs : (displayRows entries).Climbs key path)
    (isAbove : (displayRows entries).parent child.row = key) (valid : child.ancestryInvalid = false)
    (apart : ∀ row ∈ path, row.node.id ≠ child.cycleAnchorId ∧ row.node.id ≠ child.row.node.id)
    (distinct : (path.map (·.node.id)).Nodup) {fuel : Nat} (enough : path.length ≤ fuel) :
    (unfold (nextBranchRow (displayRows entries) limit) fuel child).map (·.row) =
        child.row :: (if child.boundaryCount < limit then
          branchPage (displayRows entries) limit (fuel + 1) child.boundaryCount key else []) ∧
      ∀ branch ∈ unfold (nextBranchRow (displayRows entries) limit) fuel child,
        branch.ancestryInvalid = false := by
  induction climbs generalizing child fuel with
  | root =>
    rw [unfold_of_none (nextBranchRow_of_none (by rw [isAbove]; rfl)), branchPage]
    simpa using valid
  | @missing name lost =>
    rw [unfold_of_none (nextBranchRow_of_none (by rw [isAbove]; exact lost)), branchPage,
      bind_some, lost]
    simpa using valid
  | @node name row rest found above ih =>
    by_cases goesOn : child.boundaryCount < limit
    · obtain ⟨less, rfl⟩ : ∃ less, fuel = less + 1 :=
        Nat.exists_eq_add_one.mpr (Nat.lt_of_lt_of_le (Nat.succ_pos _) enough)
      obtain ⟨parent, isNext, rfl, count, anchor, invalid⟩ :=
        nextBranchRow_of_some goesOn valid (by rw [isAbove]; exact found)
      obtain ⟨fresh, distinctRest⟩ := nodup_cons.mp distinct
      have away : ∀ other ∈ parent.row :: rest, other.node.id ≠ parent.cycleAnchorId := by
        intro other mem
        rcases anchor with old | moved
        · rw [old]
          exact (apart other mem).1
        · rw [moved]
          exact (apart other mem).2
      have validParent : parent.ancestryInvalid = false := by
        rw [invalid, beq_eq_false_iff_ne]
        exact away parent.row (.head _)
      have apartRest : ∀ other ∈ rest, other.node.id ≠ parent.cycleAnchorId ∧
          other.node.id ≠ parent.row.node.id := by
        intro other mem
        refine ⟨away other (.tail _ mem), ?_⟩
        intro same
        apply fresh
        show parent.row.node.id ∈ _
        rw [← same]
        exact mem_map_of_mem mem
      obtain ⟨rows, allValid⟩ := ih rfl validParent apartRest distinctRest
        (Nat.le_of_succ_le_succ enough)
      rw [unfold_of_some isNext]
      constructor
      · rw [map_cons, rows, if_pos goesOn, branchPage_of_found found, count]
      · intro branch mem
        rcases mem_cons.mp mem with rfl | later
        · exact valid
        · exact allValid branch later
    · have ends : nextBranchRow (displayRows entries) limit child = none := by
        rw [nextBranchRow, if_neg (fun going => goesOn going.1)]
      rw [unfold_of_none ends, if_neg goesOn]
      simpa using valid

theorem pathIds_nodup (climbs : (displayRows entries).Climbs key path) :
    (path.map (·.node.id)).Nodup :=
  climbs.names_nodup fun _ _ => findRow_id

theorem branchQuery_of_climbs {leafId : Option EntryId}
    (climbs : (displayRows entries).Climbs leafId path) :
    (branchQuery entries limit leafId).map (·.row) =
        branchPage (displayRows entries) limit (3 * entries.length + 2) 0 leafId ∧
      (branchQuery entries limit leafId).any (·.ancestryInvalid) = false := by
  have distinct := pathIds_nodup climbs
  have short := climbs.length_le (mem_of_climbs climbs)
  cases climbs with
  | root => exact ⟨rfl, rfl⟩
  | missing lost =>
    rw [branchQuery, branchPage, bind_some, lost]
    exact ⟨rfl, rfl⟩
  | @node name row rest found above =>
    rw [length_cons] at short
    have apart : ∀ other ∈ rest, other.node.id ≠ (firstBranchRow row).cycleAnchorId ∧
        other.node.id ≠ (firstBranchRow row).row.node.id := by
      intro other mem
      have different : other.node.id ≠ row.node.id := by
        intro same
        apply (nodup_cons.mp distinct).1
        show row.node.id ∈ _
        rw [← same]
        exact mem_map_of_mem mem
      exact ⟨different, different⟩
    have isAbove : (displayRows entries).parent (firstBranchRow row).row =
        (displayRows entries).parent row := rfl
    obtain ⟨rows, allValid⟩ := unfold_nextBranchRow above isAbove rfl apart
      (nodup_cons.mp distinct).2 (by omega : rest.length ≤ 3 * entries.length)
    rw [branchQuery, bind_some, found]
    refine ⟨?_, by simpa using allValid⟩
    rw [rows, branchPage_of_found found, Nat.zero_add]
    rfl

theorem activeBranchTurnCardRows_of_climbs (positive : 1 ≤ limit)
    (climbs : (displayRows entries).Climbs (before <|> activeLeafId) path) :
    ∃ page older, SplitsAt (displayRows entries) path page older ∧
      page.countP TranscriptEntryRow.startsTurn ≤ limit ∧
      activeBranchTurnCardRows entries activeLeafId before limit = .ok (branchRows page) := by
  have short := climbs.length_le (mem_of_climbs climbs)
  have enough : path.length < 3 * entries.length + 2 := by omega
  obtain ⟨older, splits, _⟩ := branchPage_splits climbs enough positive
  obtain ⟨rows, allValid⟩ := branchQuery_of_climbs climbs
  refine ⟨_, older, splits, by omega, ?_⟩
  rw [activeBranchTurnCardRows, allValid, if_neg Bool.false_ne_true, rows, cardRows_eq]

/-- What a reader has who has followed the pages to the end of a path. -/
structure CoversPath (limit : Nat) (path : List TranscriptEntryRow) (pages : List (List TurnCardRow)) :
    Prop where
  rows : pages.reverse.flatten = branchRows path
  few : ∀ rows ∈ pages, rows.countP TurnCardRow.startsTurn ≤ limit
  cards : (pages.reverse.map turnCardsFromRows).flatten = turnCardsFromRows (branchRows path)

theorem turnCardsFromRows_branchRows_append
    (cut : older = [] ∨ ∃ row, newer.getLast? = some row ∧ row.startsTurn) :
    turnCardsFromRows (branchRows (newer ++ older)) =
      turnCardsFromRows (branchRows older) ++ turnCardsFromRows (branchRows newer) := by
  rw [branchRows_append cut]
  rcases cut with rfl | ⟨row, isLast, starts⟩
  · rfl
  · apply turnCardsFromRows_append
    intro first isFirst
    obtain ⟨_, isHead⟩ := branchRows_head? isLast
    cases isHead.symm.trans isFirst
    exact starts

/-- The pages of a branch cover its path. -/
theorem pages_cover (positive : 1 ≤ limit)
    (climbs : (displayRows entries).Climbs (before <|> activeLeafId) path) :
    ∃ pages, Pages entries activeLeafId limit before pages ∧ CoversPath limit path pages := by
  induction size : path.length using Nat.strongRecOn generalizing path before with
  | ind size ih =>
    subst size
    obtain ⟨page, older, splits, few, read⟩ := activeBranchTurnCardRows_of_climbs positive climbs
    have fewRows : (branchRows page).countP TurnCardRow.startsTurn ≤ limit := by
      rw [branchRows_countP]
      exact few
    have split := splits.whole
    cases isLast : page.getLast? with
    | none =>
      obtain rfl := getLast?_eq_none_iff.mp isLast
      obtain rfl := splits.nonempty rfl
      exact ⟨[[]], .last read rfl, by simp [branchRows], by simp, by simp [branchRows]⟩
    | some row =>
      obtain ⟨_, isHead⟩ := branchRows_head? isLast
      have above := splits.climbs row isLast
      have cursor : (turnCardPage (branchRows page)).nextBeforeEntryId =
          displayParentId row.node := by
        rw [turnCardPage, isHead, bind_some, cardRow_displayParentId]
      cases next : displayParentId row.node with
      | none =>
        change (displayRows entries).Climbs (displayParentId row.node) older at above
        rw [next] at above
        cases above
        rw [append_nil] at split
        subst split
        refine ⟨[branchRows path], .last read (cursor.trans next), by simp, ?_, by simp⟩
        simpa using fewRows
      | some id =>
        change (displayRows entries).Climbs (displayParentId row.node) older at above
        rw [next] at above
        have shorter : older.length < path.length := by
          have positivePage := length_pos_of_mem (mem_of_getLast? isLast)
          rw [split, length_append]
          omega
        have onward : (displayRows entries).Climbs (some id <|> activeLeafId) older := above
        obtain ⟨pages, follows, covers⟩ := ih older.length shorter onward rfl
        refine ⟨branchRows page :: pages, .next read (cursor.trans next) follows, ?_, ?_, ?_⟩
        · rw [reverse_cons, flatten_append, covers.rows, split, branchRows_append splits.cut]
          simp
        · intro rows mem
          rcases mem_cons.mp mem with rfl | later
          · exact fewRows
          · exact covers.few rows later
        · rw [reverse_cons, map_append, flatten_append, covers.cards, split,
            turnCardsFromRows_branchRows_append splits.cut]
          simp

/-- From the active leaf the pages come to an end. They have each entry of the display path
once, and the cards of the whole path. -/
theorem pages_partition (positive : 1 ≤ limit)
    (climbs : (displayRows entries).Climbs activeLeafId path) :
    ∃ pages whole, Pages entries activeLeafId limit none pages ∧
      cardRows path = .ok whole ∧ whole.map (·.id) = (path.map (·.node.id)).reverse ∧
      pages.reverse.flatten = whole ∧
      (∀ rows ∈ pages, rows.countP TurnCardRow.startsTurn ≤ limit) ∧
      (pages.reverse.map fun rows => (turnCardPage rows).cards).flatten =
        turnCardsFromRows whole := by
  have fromLeaf : (displayRows entries).Climbs (none <|> activeLeafId) path := climbs
  obtain ⟨pages, follows, covers⟩ := pages_cover positive fromLeaf
  exact ⟨pages, branchRows path, follows, cardRows_eq path, branchRows_ids path, covers.rows,
    covers.few, covers.cards⟩

def startOfTurn (id : EntryId) (parentId : Option EntryId) (turnId : TurnId) :
    TranscriptEntryRow where
  node :=
    { id, parentId, timestampMs := 0, item := .turnStarted turnId, providerReplay := [] }
  sequence := turnId

/-- Two turns, with one turn a page. -/
theorem pages_partition_two : ∃ pages whole,
    Pages [startOfTurn "first" none 1, startOfTurn "second" (some "first") 2] (some "second") 1
      none pages ∧
      cardRows [startOfTurn "second" (some "first") 2, startOfTurn "first" none 1] = .ok whole ∧
      whole.map (·.id) = ["first", "second"] ∧ pages.reverse.flatten = whole ∧
      (∀ rows ∈ pages, rows.countP TurnCardRow.startsTurn ≤ 1) ∧
      (pages.reverse.map fun rows => (turnCardPage rows).cards).flatten =
        turnCardsFromRows whole :=
  pages_partition (Nat.le_refl 1) (.node rfl (.node rfl .root))

end PiRelay.Store
