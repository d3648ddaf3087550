import PiRelay.AgentSession.StoredForest
import PiRelay.AgentStore.ContextFork

/-! What a context fork inherits. An entry is stored after the entry it is shown below, so
the displayed path stands in the table in its own order, and the last completed entry by
sequence is the last one on the path. -/
namespace PiRelay.Store

open AgentVocab AgentCore Session List Option

/-- A stored transcript, in the order of its sequence numbers. Every entry is new, and is
shown below an earlier one or at the top; the summary of a compaction is a root. -/
inductive SessionTranscript : List TranscriptStorageNode → Prop where
  | nil : SessionTranscript []
  | snoc {stored : List TranscriptStorageNode} {entry : TranscriptStorageNode}
      (transcript : SessionTranscript stored) (unused : entry.id ∉ entryIds stored)
      (shown : ∀ parentId ∈ displayParentId entry, parentId ∈ entryIds stored)
      (root : ∀ summary, entry.item = .compactionSummary summary → entry.parentId = none) :
      SessionTranscript (stored ++ [entry])

/-- The longest beginning of a path that ends where the conversation is complete. -/
structure LongestCompleted (path kept : List TranscriptStorageNode) : Prop where
  isPrefix : kept <+: path
  completed : ∀ leaf ∈ kept.getLast?, completesContext leaf.item = true
  longest : ∀ other, other <+: path →
    (∀ leaf ∈ other.getLast?, completesContext leaf.item = true) → other.length ≤ kept.length

theorem parentId_shown {entry : TranscriptStorageNode}
    (root : ∀ summary, entry.item = .compactionSummary summary → entry.parentId = none) :
    entry.parentId = none ∨ entry.parentId = displayParentId entry := by
  rw [displayParentId]
  split
  · rename_i summary isSummary
    exact .inl (root summary isSummary)
  · exact .inr rfl

variable {leafId lastId : Option EntryId} {entries : List TranscriptStorageNode}

theorem shownBelow_snoc {entry : TranscriptStorageNode} (shown : ShownBelow leafId entries lastId)
    (below : displayParentId entry = lastId) :
    ShownBelow leafId (entries ++ [entry]) (some entry.id) := by
  induction entries generalizing leafId with
  | nil => exact ⟨below.trans shown, rfl⟩
  | cons _ _ ih => exact ⟨shown.1, ih shown.2⟩

theorem shownBelow_append {before after : List TranscriptStorageNode}
    (shown : ShownBelow leafId (before ++ after) lastId) :
    ∃ middleId, ShownBelow leafId before middleId ∧ ShownBelow middleId after lastId := by
  induction before generalizing leafId with
  | nil => exact ⟨leafId, rfl, shown⟩
  | cons _ _ ih =>
    obtain ⟨middleId, shownBefore, shownAfter⟩ := ih shown.2
    exact ⟨middleId, ⟨shown.1, shownBefore⟩, shownAfter⟩

theorem ShownBelow.last (shown : ShownBelow leafId entries lastId) :
    lastId = (entries.getLast?.map (·.id)).or leafId := by
  induction entries generalizing leafId with
  | nil => exact shown
  | cons _ rest ih =>
    rw [ih shown.2]
    cases rest with
    | nil => rfl
    | cons => simp [getLast?_cons]

theorem ShownBelow.climbs_reverse {stored : List TranscriptStorageNode}
    {path : List TranscriptStorageNode} (shown : ShownBelow leafId entries lastId)
    (found : ∀ entry ∈ entries, findEntry stored entry.id = some entry)
    (climbs : (displayTree stored).Climbs leafId path) :
    (displayTree stored).Climbs lastId (entries.reverse ++ path) := by
  induction entries generalizing leafId path with
  | nil =>
    obtain rfl : lastId = leafId := shown
    exact climbs
  | cons first _ ih =>
    have foundFirst := found first (.head _)
    have above : (displayTree stored).Climbs ((displayTree stored).parent first) path := by
      show (displayTree stored).Climbs (displayParentId first) path
      rw [shown.1]
      exact climbs
    rw [reverse_cons, append_assoc]
    exact ih shown.2 (forall_mem_cons.mp found).2 (.node foundFirst above)

namespace SessionTranscript

variable {stored entries : List TranscriptStorageNode}

theorem distinct (transcript : SessionTranscript stored) : (entryIds stored).Nodup := by
  induction transcript with
  | nil => exact nodup_nil
  | snoc _ unused _ _ ih => exact entryIds_snoc_nodup ih unused

theorem of_append (transcript : SessionTranscript (stored ++ entries)) :
    SessionTranscript stored := by
  induction entries using List.reverseRecOn with
  | nil => simpa using transcript
  | append_singleton entries last ih =>
    apply ih
    generalize hAll : stored ++ (entries ++ [last]) = all at transcript
    cases transcript with
    | nil => simp at hAll
    | snoc =>
      rw [← append_assoc] at hAll
      rwa [(append_inj' hAll rfl).1]

section

variable (transcript : SessionTranscript stored)
include transcript

theorem forest : Forest stored := by
  induction transcript with
  | nil => exact .nil
  | @snoc stored entry _ unused shown root ih =>
    apply ih.snoc unused
    intro parentId isParent
    rcases parentId_shown root with isRoot | isShown
    · rw [isRoot] at isParent
      cases isParent
    · rw [isShown] at isParent
      exact shown parentId isParent

theorem append {leafId lastId : Option EntryId} (known : ∀ id ∈ leafId, id ∈ entryIds stored)
    (shown : ShownBelow leafId entries lastId) (nodup : (entryIds (stored ++ entries)).Nodup)
    (root : ∀ entry ∈ entries, ∀ summary, entry.item = .compactionSummary summary →
      entry.parentId = none) :
    SessionTranscript (stored ++ entries) ∧ ∀ id ∈ lastId, id ∈ entryIds (stored ++ entries) := by
  induction entries generalizing stored leafId with
  | nil =>
    obtain rfl : lastId = leafId := shown
    rw [append_nil]
    exact ⟨transcript, known⟩
  | cons first _ ih =>
    rw [append_cons] at nodup ⊢
    have unused : first.id ∉ entryIds stored := by
      intro taken
      rw [append_assoc, entryIds_append, nodup_append'] at nodup
      exact nodup.2.2 taken (by simp [entryIds])
    have grown : SessionTranscript (stored ++ [first]) :=
      transcript.snoc unused (shown.1 ▸ known) (root first (.head _))
    apply ih grown _ shown.2 nodup
    · intro entry mem
      exact root entry (.tail _ mem)
    · intro id isFirst
      obtain rfl := mem_some_iff.mp isFirst
      simp [entryIds]

theorem path {leafId : EntryId} (known : leafId ∈ entryIds stored) :
    ∃ path, path.Sublist stored ∧ ShownBelow none path (some leafId) ∧ SessionTranscript path := by
  induction transcript generalizing leafId with
  | nil => cases known
  | @snoc stored entry _ unused shown root ih =>
    rw [entryIds_append] at known
    rcases Library.mem_concat.mp known with old | rfl
    · obtain ⟨path, sublist, chain, own⟩ := ih old
      exact ⟨path, sublist.trans (sublist_append_left _ _), chain, own⟩
    · cases hParent : displayParentId entry with
      | none =>
        refine ⟨[entry], sublist_append_right _ _, ⟨hParent, rfl⟩, ?_⟩
        exact .snoc .nil not_mem_nil (by simp [hParent]) root
      | some parentId =>
        obtain ⟨path, sublist, chain, own⟩ := ih (shown parentId hParent)
        refine ⟨path ++ [entry], sublist.append_right _, shownBelow_snoc chain hParent, ?_⟩
        apply own.snoc _ _ root
        · intro taken
          exact unused ((sublist.map _).subset taken)
        · intro otherId isParent
          cases hParent.symm.trans isParent
          have last := chain.last
          rw [or_none] at last
          obtain ⟨node, isLast, sameId⟩ := map_eq_some_iff.mp last.symm
          exact mem_map.mpr ⟨node, mem_of_getLast? isLast, sameId⟩

end

end SessionTranscript

theorem filter_ids_of_sublist {stored part : List TranscriptStorageNode}
    (distinct : (entryIds stored).Nodup) (sublist : part.Sublist stored) :
    stored.filter (fun entry => (entryIds part).contains entry.id) = part := by
  induction sublist with
  | slnil => rfl
  | @cons part stored first sublist ih =>
    obtain ⟨apart, nodup⟩ := nodup_cons.mp distinct
    have absent : first.id ∉ entryIds part := fun taken => apart ((sublist.map _).subset taken)
    rw [filter_cons_of_neg (by simpa using absent), ih nodup]
  | @cons_cons part stored first sublist ih =>
    obtain ⟨apart, nodup⟩ := nodup_cons.mp distinct
    rw [filter_cons_of_pos (by simp [entryIds])]
    congr 1
    rw [← ih nodup]
    apply filter_congr
    intro entry mem
    have other : entry.id ≠ first.id := by
      intro same
      apply apart
      show first.id ∈ _
      rw [← same]
      exact mem_map_of_mem mem
    rw [ih nodup]
    simp [entryIds, other]

theorem idxOf?_append_cons {before after : List EntryId} {id : EntryId} (absent : id ∉ before) :
    (before ++ id :: after).idxOf? id = some before.length := by
  induction before with
  | nil => simp [idxOf?_cons]
  | cons first _ ih =>
    rw [mem_cons, not_or] at absent
    have other : (first == id) = false := beq_eq_false_iff_ne.mpr (Ne.symm absent.1)
    rw [cons_append, idxOf?_cons, other, ih absent.2]
    rfl

theorem longestCompleted_of_find? {path before after : List TranscriptStorageNode}
    {leaf : TranscriptStorageNode} (split : path = before ++ leaf :: after)
    (complete : completesContext leaf.item)
    (isOpen : ∀ entry ∈ after, completesContext entry.item = false) :
    LongestCompleted path (before ++ [leaf]) where
  isPrefix := ⟨after, by rw [split, append_assoc]; rfl⟩
  completed := by
    intro last isLast
    rw [getLast?_append_cons, getLast?_singleton] at isLast
    obtain rfl := mem_some_iff.mp isLast
    exact complete
  longest := by
    intro other isPrefix completed
    by_contra longer
    rw [split, append_cons] at isPrefix
    obtain ⟨own, rfl⟩ := prefix_of_prefix_length_le (prefix_append _ after) isPrefix
      (Nat.le_of_not_le longer)
    rw [prefix_append_right_inj] at isPrefix
    cases hLast : own.getLast? with
    | none =>
      rw [getLast?_eq_none_iff] at hLast
      rw [hLast, append_nil] at longer
      exact longer (Nat.le_refl _)
    | some last =>
      have isLast : last ∈ (before ++ [leaf] ++ own).getLast? := by
        rw [getLast?_append, hLast]
        rfl
      have isComplete := completed last isLast
      rw [isOpen last (isPrefix.subset (mem_of_getLast? hLast))] at isComplete
      exact Bool.false_ne_true isComplete

namespace SessionRow

variable {parent child : SessionRow}

section

variable {path : List TranscriptStorageNode} (distinct : (entryIds parent.entries).Nodup)
  (sublist : path.Sublist parent.entries) (chain : ShownBelow none path parent.activeLeafId)
include distinct sublist chain

theorem activeBranch_of_shown :
    parent.activeBranch = .ok
      { sessionId := parent.id, activeLeafId := parent.activeLeafId, entries := path } := by
  have climbs : (displayTree parent.entries).Climbs parent.activeLeafId (path.reverse ++ []) :=
    chain.climbs_reverse (fun entry mem => findEntry_of_mem distinct (sublist.subset mem)) .root
  rw [append_nil] at climbs
  rw [activeBranch, branchToRoot_of_climbs climbs, Except.map, reverse_reverse]
  intro entry mem
  exact sublist.subset (mem_reverse.mp mem)

theorem latestCompletedContext_of_shown :
    (path.reverse.find? (completesContext ·.item) = none ∧
        parent.latestCompletedContext = .ok none) ∨
      ∃ before leaf after, path = before ++ leaf :: after ∧ completesContext leaf.item ∧
        (∀ entry ∈ after, completesContext entry.item = false) ∧
        parent.latestCompletedContext = .ok
          (some { leafId := leaf.id, entryIds := entryIds (before ++ [leaf]) }) := by
  have ids : parent.branchEntryIds = .ok (entryIds path) := by
    rw [branchEntryIds, activeBranch_of_shown distinct sublist chain]
    rfl
  have boundary : parent.entries.reverse.find? (fun entry =>
      (entryIds path).contains entry.id && completesContext entry.item) =
        path.reverse.find? (completesContext ·.item) := by
    have onPath := congrArg List.reverse (filter_ids_of_sublist distinct sublist)
    rw [← filter_reverse] at onPath
    rw [← onPath, find?_filter]
    simp only [Bool.decide_and, Bool.decide_eq_true]
  rw [latestCompletedContext, ids]
  simp only [boundary]
  cases found : path.reverse.find? (completesContext ·.item) with
  | none => exact .inl ⟨rfl, rfl⟩
  | some leaf =>
    obtain ⟨complete, after, before, split, isOpen⟩ := find?_eq_some_iff_append.mp found
    right
    have splitPath : path = before.reverse ++ leaf :: after.reverse := by
      rw [← reverse_reverse path, split]
      simp
    refine ⟨before.reverse, leaf, after.reverse, splitPath, complete, ?_, ?_⟩
    · intro entry mem
      simpa using isOpen entry (mem_reverse.mp mem)
    · have nodup : (entryIds path).Nodup := distinct.sublist (sublist.map _)
      have splitIds : entryIds path =
          entryIds before.reverse ++ leaf.id :: entryIds after.reverse := by
        rw [splitPath, entryIds_append]
        rfl
      have absent : leaf.id ∉ entryIds before.reverse := by
        rw [splitIds, nodup_append'] at nodup
        exact fun taken => nodup.2.2 taken (.head _)
      simp only [splitIds, idxOf?_append_cons absent]
      rw [entryIds_append, take_length_add_append]
      rfl

end

/-- What a fork gives the child: the completed beginning of the path that the parent shows. -/
structure CompletedCopy (parent child first : SessionRow)
    (path kept : List TranscriptStorageNode) : Prop where
  shown : parent.activeBranch = .ok
    { sessionId := parent.id, activeLeafId := parent.activeLeafId, entries := path }
  longest : LongestCompleted path kept
  unchanged : kept.Sublist parent.entries
  copied : first = { child with entries := kept, activeLeafId := kept.getLast?.map (·.id) }
  parents : ∀ entry ∈ kept, ∀ parentId ∈ entry.parentId, parentId ∈ entryIds kept
  display : first.activeBranch = .ok
    { sessionId := child.id, activeLeafId := first.activeLeafId, entries := kept }
  closed : ModelContext.openTurnStart
    ({ nodes := first.entries, activeLeafId := first.activeLeafId } :
      TranscriptStore).modelContext.items = none

theorem openTurnStart_of_complete {kept : List TranscriptStorageNode}
    (transcript : SessionTranscript kept) {leaf : TranscriptStorageNode} (mem : leaf ∈ kept)
    (complete : completesContext leaf.item) :
    ModelContext.openTurnStart
      ({ nodes := kept, activeLeafId := some leaf.id } : TranscriptStore).modelContext.items =
        none := by
  generalize hStore : ({ nodes := kept, activeLeafId := some leaf.id } : TranscriptStore) = store
  have restored : store.Restored := by
    subst hStore
    refine ⟨transcript.forest.stored, ?_⟩
    intro leafId isLeaf
    obtain rfl := mem_some_iff.mp isLeaf
    exact mem_map_of_mem mem
  have found : store.getEntry leaf.id = some leaf := by
    subst hStore
    exact TranscriptStore.getEntry_of_mem transcript.distinct mem
  have ascends := restored.ascends.1
  have isLeaf : store.activeLeafId = some leaf.id := by rw [← hStore]
  rw [isLeaf] at ascends
  have items : ∃ before, store.modelContext.items.reverse = leaf.item :: before := by
    rw [TranscriptStore.modelContext_items, ← map_reverse, isLeaf]
    generalize (store.pathEntries (some leaf.id)).reverse = path at ascends
    cases ascends with
    | @node _ node rest foundNode above =>
      cases foundNode.symm.trans found
      exact ⟨_, rfl⟩
  obtain ⟨before, isLast⟩ := items
  rw [ModelContext.openTurnStart, isLast]
  cases hItem : leaf.item with
  | turnFinished | compactionSummary => rfl
  | _ => simp [completesContext, hItem] at complete

theorem shown_path (transcript : SessionTranscript parent.entries)
    (known : ∀ leafId ∈ parent.activeLeafId, leafId ∈ entryIds parent.entries) :
    ∃ path, path.Sublist parent.entries ∧ ShownBelow none path parent.activeLeafId ∧
      SessionTranscript path := by
  cases hLeaf : parent.activeLeafId with
  | none => exact ⟨[], nil_sublist _, rfl, .nil⟩
  | some leafId => exact transcript.path (known leafId hLeaf)

/-- A fork copies the branch up to its last completed turn. -/
theorem contextFork_kept (child : SessionRow) (transcript : SessionTranscript parent.entries)
    (known : ∀ leafId ∈ parent.activeLeafId, leafId ∈ entryIds parent.entries) :
    ∃ path kept, parent.activeBranch = .ok
        { sessionId := parent.id, activeLeafId := parent.activeLeafId, entries := path } ∧
      LongestCompleted path kept ∧ kept.Sublist parent.entries ∧ SessionTranscript kept ∧
      ShownBelow none kept (kept.getLast?.map (·.id)) ∧
      parent.contextFork child =
        .ok { child with entries := kept, activeLeafId := kept.getLast?.map (·.id) } := by
  obtain ⟨path, sublist, chain, own⟩ := shown_path transcript known
  have distinct := transcript.distinct
  have shown := activeBranch_of_shown distinct sublist chain
  rcases latestCompletedContext_of_shown distinct sublist chain with
    ⟨noneComplete, read⟩ | ⟨before, leaf, after, split, complete, isOpen, read⟩
  · refine ⟨path, [], shown, ⟨ nil_prefix, by simp, ?_⟩, nil_sublist _, .nil, rfl, ?_⟩
    · intro other isPrefix completed
      cases hLast : other.getLast? with
      | none => simp [getLast?_eq_none_iff.mp hLast]
      | some last =>
        have onPath := isPrefix.subset (mem_of_getLast? hLast)
        have isNot := find?_eq_none.mp noneComplete last (mem_reverse.mpr onPath)
        exact absurd (completed last hLast) isNot
    · rw [contextFork, read]
      rfl
  · have longest := longestCompleted_of_find? split complete isOpen
    generalize hKept : before ++ [leaf] = kept at longest read
    have keptSublist : kept.Sublist parent.entries := longest.isPrefix.sublist.trans sublist
    have isLast : kept.getLast?.map (·.id) = some leaf.id := by
      rw [← hKept, getLast?_append]
      rfl
    obtain ⟨_, hSplit⟩ := longest.isPrefix
    rw [← hSplit] at own chain
    obtain ⟨_, shownKept, -⟩ := shownBelow_append chain
    have isMiddle := shownKept.last
    rw [or_none] at isMiddle
    rw [isMiddle] at shownKept
    refine ⟨path, kept, shown, longest, keptSublist, own.of_append, shownKept, ?_⟩
    have copied : parent.copyHistory (entryIds kept) = kept :=
      filter_ids_of_sublist distinct keptSublist
    rw [contextFork, read, Except.map, inheriting, isLast]
    rw [copied]

/-- A context fork of any stored transcript inherits its completed context. -/
theorem contextFork_completed (child : SessionRow) (transcript : SessionTranscript parent.entries)
    (known : ∀ leafId ∈ parent.activeLeafId, leafId ∈ entryIds parent.entries) :
    ∃ first path kept, parent.contextFork child = .ok first ∧
      CompletedCopy parent child first path kept := by
  obtain ⟨path, kept, shown, longest, sublist, own, chain, forked⟩ :=
    contextFork_kept child transcript known
  refine ⟨_, path, kept, forked, shown, longest, sublist, rfl, ?_, ?_, ?_⟩
  · intro entry mem parentId isParent
    exact own.forest.parent_mem mem isParent
  · exact activeBranch_of_shown own.distinct (List.Sublist.refl _) chain
  · cases hLast : kept.getLast? with
    | none =>
      rw [getLast?_eq_none_iff.mp hLast]
      rfl
    | some leaf =>
      exact openTurnStart_of_complete own (mem_of_getLast? hLast)
        (longest.completed leaf hLast)

/-- A finished turn, and a second one that a compaction has cut while it was open. -/
def cutParent : SessionRow where
  id := "parent"
  parentSessionId := none
  delegationId := none
  delegationSpawnIndex := none
  subagentType := none
  entries :=
    [⟨"start", none, 1, .turnStarted 1, []⟩,
      ⟨"finish", some "start", 2, .turnFinished 1 .graceful, []⟩,
      ⟨"again", some "finish", 3, .turnStarted 2, []⟩,
      ⟨"summary", none, 4, .compactionSummary ⟨"parent", "again", "so far", none, 2, some 3⟩, []⟩]
  activeLeafId := some "summary"
  actions := []
  mailbox := []

theorem cutParent_transcript : SessionTranscript cutParent.entries := by
  have start : SessionTranscript (cutParent.entries.take 1) :=
    @SessionTranscript.snoc [] _ .nil (by decide) (by decide) (by intro summary item; cases item)
  have finish : SessionTranscript (cutParent.entries.take 2) :=
    @SessionTranscript.snoc (cutParent.entries.take 1) _ start (by decide) (by decide)
      (by intro summary item; cases item)
  have again : SessionTranscript (cutParent.entries.take 3) :=
    @SessionTranscript.snoc (cutParent.entries.take 2) _ finish (by decide) (by decide)
      (by intro summary item; cases item)
  exact @SessionTranscript.snoc (cutParent.entries.take 3) _ again (by decide) (by decide)
    (fun _ _ => rfl)

theorem cutParent_completed :
    ∃ first path kept, cutParent.contextFork { cutParent with id := "child" } = .ok first ∧
      CompletedCopy cutParent { cutParent with id := "child" } first path kept :=
  contextFork_completed _ cutParent_transcript (by decide)

theorem createContextFork_ok_iff {first : SessionRow}
    {parentFingerprint manifestFingerprint : Option String} :
    parent.createContextFork child parentFingerprint manifestFingerprint = .ok first ↔
      (child.id ≠ parent.id ∧ parentFingerprint = manifestFingerprint) ∧
        parent.contextFork child = .ok first := by
  rw [createContextFork]
  split
  · rename_i same
    simp [same]
  · rename_i apart
    split
    · rename_i differ
      simp [differ]
    · rename_i bound
      simp [apart, not_not.mp bound]

/-- Sessions as their transcripts grow: outputs without summaries and compactions are
installed, the active leaf moves to a stored entry, and sessions are forked. -/
inductive Recorded : SessionRow → Prop where
  | created (child : SessionRow) : Recorded { child with entries := [], activeLeafId := none }
  | output {session after : SessionRow} (recorded : Recorded session) (inherited : List EntryId)
      {entries : List TranscriptStorageNode} {activeLeafId : Option EntryId}
      (plain : ∀ entry ∈ entries, ∀ summary, entry.item ≠ .compactionSummary summary)
      (isRecorded : session.record inherited (.output entries activeLeafId) = some after) :
      Recorded after
  | compact {session after : SessionRow} (recorded : Recorded session) (inherited : List EntryId)
      {job : StoredCompactionJob} {completion : CompactionCompletion} {ids : Nat → EntryId}
      {rootTimestampMs : Nat} (isRecorded : session.record inherited
        (.compact job completion ids rootTimestampMs) = some after) : Recorded after
  | switch {session : SessionRow} (recorded : Recorded session) {leafId : Option EntryId}
      (known : ∀ id ∈ leafId, id ∈ entryIds session.entries) :
      Recorded { session with activeLeafId := leafId }
  | fork {session first : SessionRow} (recorded : Recorded session) (child : SessionRow)
      {parentFingerprint manifestFingerprint : Option String}
      (forked : session.createContextFork child parentFingerprint manifestFingerprint = .ok first) :
      Recorded first

theorem install_transcript {session : SessionRow} (transcript : SessionTranscript session.entries)
    {entries : List TranscriptStorageNode} {leafId lastId : Option EntryId}
    (known : ∀ id ∈ leafId, id ∈ entryIds session.entries)
    (shown : ShownBelow leafId entries lastId) (drawn : DrawnFor session.entries entries)
    (root : ∀ entry ∈ entries, ∀ summary, entry.item = .compactionSummary summary →
      entry.parentId = none) :
    SessionTranscript (session.install entries lastId).entries ∧
      ∀ id ∈ (session.install entries lastId).activeLeafId,
        id ∈ entryIds (session.install entries lastId).entries := by
  have nodup : (entryIds (session.database.entries ++ entries)).Nodup := by
    rw [entryIds_append, nodup_append']
    refine ⟨transcript.distinct, drawn.1, ?_⟩
    intro id stored isNew
    obtain ⟨entry, mem, rfl⟩ := mem_map.mp stored
    exact (drawn.2 entry.id isNew entry mem).1 rfl
  have grown : (session.install entries lastId).entries = session.entries ++ entries :=
    congrArg Database.entries (Database.insertEntries_of_nodup nodup)
  rw [grown]
  exact transcript.append known shown nodup root

theorem suffixEntries_roots {suffix : List ModelContextEntry}
    (users : suffix.all (·.item.isUserMessage)) (parentId : EntryId) (timestampMs : Nat)
    (ids : Nat → EntryId) :
    ∀ entry ∈ suffixEntries parentId timestampMs ids suffix, ∀ summary,
      entry.item ≠ .compactionSummary summary := by
  induction suffix generalizing parentId timestampMs ids with
  | nil => exact fun _ mem => absurd mem not_mem_nil
  | cons first _ ih =>
    rw [all_cons, Bool.and_eq_true] at users
    intro entry mem summary isSummary
    rcases mem_cons.mp mem with rfl | later
    · have isUser := users.1
      rw [show first.item = .compactionSummary summary from isSummary] at isUser
      cases isUser
    · exact ih users.2 _ _ _ entry later summary isSummary

/-- What is recorded is a transcript, and its leaf is an entry. -/
theorem Recorded.transcript {session : SessionRow} (recorded : Recorded session) :
    SessionTranscript session.entries ∧
      ∀ leafId ∈ session.activeLeafId, leafId ∈ entryIds session.entries := by
  induction recorded with
  | created => exact ⟨.nil, by simp⟩
  | output _ _ plain isRecorded ih =>
    rw [SessionRow.record] at isRecorded
    split at isRecorded
    · rename_i admitted
      cases isRecorded
      apply install_transcript ih.1 ih.2 admitted.1 admitted.2.1
      intro entry mem summary isSummary
      exact absurd isSummary (plain entry mem summary)
    · cases isRecorded
  | @compact session after _ inherited job completion ids rootTimestampMs isRecorded ih =>
    rw [SessionRow.record] at isRecorded
    split at isRecorded
    · rename_i admitted
      cases isRecorded
      obtain ⟨installs, drawn, users⟩ := admitted
      have source : ∀ id ∈ some job.sourceLeafId, id ∈ entryIds session.entries := by
        intro id isSource
        obtain rfl := mem_some_iff.mp isSource
        rw [canInstall] at installs
        split at installs
        · exact ih.2 _ (eq_of_beq installs)
        · rw [Bool.and_eq_true, contains_iff_mem] at installs
          exact installs.1
      have suffix := suffixEntries_roots users (ids 0) rootTimestampMs (fun draw => ids (draw + 1))
      apply install_transcript ih.1 source (installedEntries_shown _ job ids rootTimestampMs) drawn
      · intro entry mem summary isSummary
        rcases mem_cons.mp mem with rfl | later
        · rfl
        · exact absurd isSummary (suffix entry later summary)
      · intro entry mem summary isSummary
        have isUser := all_eq_true.mp users entry mem
        rw [isSummary] at isUser
        cases isUser
    · cases isRecorded
  | switch _ known ih => exact ⟨ih.1, known⟩
  | @fork session first _ child _ _ created ih =>
    obtain ⟨-, forked⟩ := createContextFork_ok_iff.mp created
    obtain ⟨_, _, -, -, -, own, -, again⟩ := contextFork_kept child ih.1 ih.2
    obtain rfl := Except.ok.inj (forked.symm.trans again)
    refine ⟨own, ?_⟩
    intro leafId isLeaf
    obtain ⟨_, isLast, rfl⟩ := map_eq_some_iff.mp isLeaf
    exact mem_map_of_mem (mem_of_getLast? isLast)

/-- A fork is refused only into the parent's own id, or where the configuration binds another
manifest. It inherits a whole transcript: forked in its turn it passes on what it has. -/
theorem recorded_session_forks {session : SessionRow} (recorded : Recorded session)
    (child : SessionRow) (parentFingerprint manifestFingerprint : Option String) :
    SessionTranscript session.entries ∧
      ((∃ first, session.createContextFork child parentFingerprint manifestFingerprint =
          .ok first) ↔ child.id ≠ session.id ∧ parentFingerprint = manifestFingerprint) ∧
      ∀ first, session.createContextFork child parentFingerprint manifestFingerprint =
          .ok first →
        Recorded first ∧ first.id = child.id ∧ ∀ other : SessionRow, other.id ≠ first.id →
          first.createContextFork other manifestFingerprint manifestFingerprint =
            .ok { other with entries := first.entries, activeLeafId := first.activeLeafId } := by
  obtain ⟨transcript, known⟩ := recorded.transcript
  obtain ⟨path, kept, -, longest, -, -, shown, forked⟩ := contextFork_kept child transcript known
  refine ⟨transcript, ?_, ?_⟩
  · constructor
    · rintro ⟨first, created⟩
      exact (createContextFork_ok_iff.mp created).1
    · intro accepted
      exact ⟨_, createContextFork_ok_iff.mpr ⟨accepted, forked⟩⟩
  · intro first created
    have again := Recorded.fork recorded child created
    obtain ⟨-, isFork⟩ := createContextFork_ok_iff.mp created
    obtain rfl := Except.ok.inj (forked.symm.trans isFork)
    refine ⟨again, rfl, ?_⟩
    intro other apart
    obtain ⟨own, ownKnown⟩ := again.transcript
    obtain ⟨otherPath, otherKept, branch, otherLongest, -, -, -, otherForked⟩ :=
      contextFork_kept other own ownKnown
    rw [activeBranch_of_shown own.distinct (Sublist.refl _) shown] at branch
    obtain rfl : kept = otherPath := by simpa using branch
    have whole := otherLongest.longest kept (prefix_refl _) longest.completed
    rw [otherLongest.isPrefix.eq_of_length_le whole] at otherForked
    exact createContextFork_ok_iff.mpr ⟨⟨apart, rfl⟩, otherForked⟩

/-- A finished turn and an open one: the fork has the finished turn. -/
theorem recorded_session_forks_turn : ∃ session first : SessionRow, session.entries.length = 3 ∧
    Recorded session ∧
    session.createContextFork { cutParent with id := "child" } (some "tools") (some "tools") =
      .ok first ∧ first.entries = cutParent.entries.take 2 := by
  have turn := @Recorded.output _ _ (.created cutParent) [] (cutParent.entries.take 3)
    (some "again") (by simp [cutParent]) rfl
  obtain ⟨-, forks, -⟩ := recorded_session_forks turn { cutParent with id := "child" }
    (some "tools") (some "tools")
  obtain ⟨first, forked⟩ := forks.mpr ⟨by decide, rfl⟩
  refine ⟨_, first, rfl, turn, forked, ?_⟩
  have copied := (Except.ok.inj forked).symm
  subst copied
  decide

end SessionRow

end PiRelay.Store
