import PiRelay.AgentStore.CompactionJobs
import PiRelay.AgentStore.Transactions

/-! The transcript of a subagent. It begins with a copy of what its parent had completed,
or with nothing, and it grows below the leaf it began with. So its branch is the branch
it began with, followed by entries of its own. -/
namespace PiRelay.Store

open AgentVocab AgentCore Session List Option

/-- Where a conversation is complete. The summary of an open turn tells when the turn
started. -/
def completesContext : TranscriptItem → Bool
  | .turnFinished _ _ => true
  | .compactionSummary summary => summary.turnStartedAtMs.isNone
  | _ => false

/-- A completed boundary and the branch up to it. -/
structure CompletedContext where
  leafId : EntryId
  entryIds : List EntryId

namespace SessionRow

def branchEntryIds (session : SessionRow) : Except String (List EntryId) :=
  session.activeBranch.map fun history => history.entries.map (·.id)

def latestCompletedContext (session : SessionRow) : Except String (Option CompletedContext) :=
  match session.branchEntryIds with
  | .error message => .error message
  | .ok entryIds =>
    match session.entries.reverse.find? fun entry =>
        entryIds.contains entry.id && completesContext entry.item with
    | none => .ok none
    | some leaf =>
      match entryIds.idxOf? leaf.id with
      | none => .error "completed context boundary is not on the active branch"
      | some boundary =>
        .ok (some { leafId := leaf.id, entryIds := entryIds.take (boundary + 1) })

def copyHistory (source : SessionRow) (entryIds : List EntryId) : List TranscriptStorageNode :=
  source.entries.filter fun entry => entryIds.contains entry.id

/-- The new child with the transcript it is given. -/
def inheriting (child parent : SessionRow) : Option CompletedContext → SessionRow
  | none => { child with entries := [], activeLeafId := none }
  | some context =>
    { child with
      entries := parent.copyHistory context.entryIds
      activeLeafId := some context.leafId }

def contextFork (parent child : SessionRow) : Except String SessionRow :=
  parent.latestCompletedContext.map (child.inheriting parent)

def createContextFork (parent child : SessionRow)
    (parentFingerprint manifestFingerprint : Option String) : Except String SessionRow :=
  if child.id = parent.id then .error "child session id must differ from parent session id"
  else if parentFingerprint ≠ manifestFingerprint then
    .error "session configuration changed before the request was applied"
  else parent.contextFork child

end SessionRow

/-- A subagent at its creation. The entries of the parent are keyed by their ids. -/
inductive CreatedSubagent : SessionRow → Prop where
  | fresh (child : SessionRow) : CreatedSubagent { child with entries := [], activeLeafId := none }
  | forked {parent child first : SessionRow} (keyed : (entryIds parent.entries).Nodup)
      (forked : parent.contextFork child = .ok first) : CreatedSubagent first

/-- What happens to the transcript of a session: the output of a turn, or the entries that
close one; a compaction that completes; and work that leaves the transcript. -/
inductive TranscriptStep where
  | output (entries : List TranscriptStorageNode) (activeLeafId : Option EntryId)
  | compact (job : StoredCompactionJob) (completion : CompactionCompletion) (ids : Nat → EntryId)
      (rootTimestampMs : Nat)
  | work (actions : List MarkedAction) (mailbox : List MailboxRow)

/-- New ids are drawn at random: nothing has one, and nothing names one. -/
def DrawnFor (stored : List TranscriptStorageNode) (entries : List TranscriptStorageNode) : Prop :=
  (entryIds entries).Nodup ∧
    ∀ id ∈ entryIds entries, ∀ entry ∈ stored, entry.id ≠ id ∧ displayParentId entry ≠ some id

instance (stored entries : List TranscriptStorageNode) : Decidable (DrawnFor stored entries) :=
  inferInstanceAs (Decidable (_ ∧ ∀ id ∈ entryIds entries, ∀ entry ∈ stored, _))

namespace SessionRow

def database (session : SessionRow) : Database where
  entries := session.entries
  activeLeafId := session.activeLeafId

def install (session : SessionRow) (entries : List TranscriptStorageNode)
    (activeLeafId : Option EntryId) : SessionRow :=
  { session with
    entries := (session.database.insertEntries entries).entries
    activeLeafId }

/-- A mid-turn compaction has its source below the start of a turn of the session; one at
a boundary is installed if the source is still the active leaf. -/
def canInstall (session : SessionRow) (inherited : List EntryId) (job : StoredCompactionJob) : Bool :=
  match job.scope with
  | .boundary _ => session.activeLeafId == some job.sourceLeafId
  | .midTurn _ _ _ _ _ =>
    (entryIds session.entries).contains job.sourceLeafId
      && !inherited.contains job.sourceLeafId

/-- One step of a session that has inherited the given entries. The entries of an output
hang on the active leaf, and a compaction goes on with messages of the user; both draw
new ids. -/
def record (inherited : List EntryId) (session : SessionRow) : TranscriptStep → Option SessionRow
  | .output entries activeLeafId =>
    if ShownBelow session.activeLeafId entries activeLeafId ∧ DrawnFor session.entries entries
        ∧ session.database.extendsActiveLeaf entries then
      some (session.install entries activeLeafId)
    else none
  | .compact job completion ids rootTimestampMs =>
    let entries := job.installedEntries completion ids rootTimestampMs
    if session.canInstall inherited job ∧ DrawnFor session.entries entries
        ∧ completion.continuationSuffix.all (·.item.isUserMessage) then
      some (session.install entries (some (completion.installedActiveLeafId ids)))
    else none
  | .work actions mailbox => some { session with actions, mailbox }

def run (inherited : List EntryId) (session : SessionRow) (steps : List TranscriptStep) :
    Option SessionRow :=
  steps.foldlM (record inherited) session

end SessionRow

/-- The branch a session begins with is all that is stored, and it is complete. -/
structure Inherited (first : SessionRow) (branch : List TranscriptStorageNode) : Prop where
  distinct : (entryIds first.entries).Nodup
  climbs : (displayTree first.entries).Climbs first.activeLeafId branch
  stored : ∀ entry, entry ∈ first.entries ↔ entry ∈ branch
  complete : ∀ leafId ∈ first.activeLeafId, ∃ leaf rest,
    branch = leaf :: rest ∧ leaf.id = leafId ∧ completesContext leaf.item

theorem Inherited.nothing (child : SessionRow) :
    Inherited { child with entries := [], activeLeafId := none } [] where
  distinct := nodup_nil
  climbs := .root
  stored _ := Iff.rfl
  complete := fun _ isLeaf => absurd isLeaf (not_mem_none _)

variable {entries : List TranscriptStorageNode} {first : SessionRow}

theorem entry_unique {entry other : TranscriptStorageNode} (distinct : (entryIds entries).Nodup)
    (mem : entry ∈ entries) (again : other ∈ entries) (same : entry.id = other.id) :
    entry = other := by
  have found := findEntry_of_mem distinct mem
  rw [same, findEntry_of_mem distinct again] at found
  exact (Option.some.inj found).symm

theorem climbs_listed {path : List TranscriptStorageNode} {leafId : Option EntryId}
    (climbs : (displayTree entries).Climbs leafId path) : ∀ entry ∈ path, entry ∈ entries := by
  induction climbs with
  | root | missing => exact fun _ mem => absurd mem not_mem_nil
  | node found _ ih =>
    intro entry mem
    rcases mem_cons.mp mem with rfl | later
    · exact findEntry_mem found
    · exact ih entry later

theorem latestCompletedContext_branch {parent : SessionRow} {context : CompletedContext}
    (keyed : (entryIds parent.entries).Nodup)
    (read : parent.latestCompletedContext = .ok (some context)) :
    ∃ leaf rest, leaf.id = context.leafId ∧ completesContext leaf.item ∧
      (displayTree parent.entries).Climbs (some leaf.id) (leaf :: rest) ∧
      context.entryIds = entryIds (leaf :: rest).reverse := by
  rw [SessionRow.latestCompletedContext, SessionRow.branchEntryIds, SessionRow.activeBranch] at read
  cases hPath : branchToRoot parent.entries parent.activeLeafId with
  | error => rw [hPath] at read; cases read
  | ok path =>
    rw [hPath] at read
    simp only [Except.map] at read
    have climbs := climbs_of_branchToRoot hPath
    split at read
    · cases read
    · rename_i leaf found
      have isLeaf := find?_some found
      have mem := mem_reverse.mp (mem_of_find?_eq_some found)
      rw [Bool.and_eq_true] at isLeaf
      split at read
      · cases read
      · rename_i boundary place
        cases read
        obtain ⟨within, hAt, _⟩ := idxOf?_eq_some_iff.mp place
        obtain ⟨before, node, after, hSplit, hLength⟩ :
            ∃ before node after, path.reverse = before ++ node :: after ∧
              before.length = boundary := by
          rw [length_map] at within
          exact ⟨path.reverse.take boundary, path.reverse[boundary], path.reverse.drop (boundary + 1),
            by rw [← drop_eq_getElem_cons, take_append_drop],
            by rw [length_take]; omega⟩
        have hPathSplit : path = after.reverse ++ node :: before.reverse := by
          rw [← reverse_reverse path, hSplit]
          simp
        have sameId : node.id = leaf.id := by
          simp only [hSplit, getElem_map] at hAt
          simpa [← hLength] using hAt
        have onPath := climbs_listed climbs node (by rw [hPathSplit]; simp)
        obtain rfl := entry_unique keyed onPath mem sameId
        refine ⟨node, before.reverse, rfl, isLeaf.2, ?_, ?_⟩
        · rw [hPathSplit] at climbs
          obtain ⟨_, _, above⟩ := climbs.of_append
          exact .node (findEntry_of_mem keyed onPath) above
        · rw [hSplit, ← hLength, entryIds, reverse_cons, reverse_reverse]
          have sameLength : (before.map fun entry => entry.id).length = before.length :=
            length_map _
          rw [map_append, map_append, map_cons, ← sameLength, take_length_add_append]
          rfl

/-- All that a fork stores is the branch it inherits. -/
theorem contextFork_inherited {parent child : SessionRow} (keyed : (entryIds parent.entries).Nodup)
    (forked : parent.contextFork child = .ok first) : ∃ branch, Inherited first branch := by
  rw [SessionRow.contextFork] at forked
  cases read : parent.latestCompletedContext with
  | error => rw [read] at forked; cases forked
  | ok completed =>
    rw [read] at forked
    cases completed with
    | none =>
      cases forked
      exact ⟨[], .nothing child⟩
    | some context =>
      cases forked
      obtain ⟨leaf, rest, hLeaf, complete, climbs, hIds⟩ := latestCompletedContext_branch keyed read
      have listed := climbs_listed climbs
      refine ⟨leaf :: rest, ?_⟩
      constructor
      · exact keyed.sublist (filter_sublist.map _)
      · show (displayTree (parent.copyHistory context.entryIds)).Climbs (some context.leafId) _
        rw [← hLeaf]
        refine climbs.transfer rfl fun named onPath => ?_
        apply findEntry_filter
        intro target names
        have mem := climbs.mem_of_named onPath names
        rw [hIds, ← findEntry_id names]
        exact mem_map_of_mem (mem_reverse.mpr mem)
      · intro entry
        show entry ∈ parent.copyHistory context.entryIds ↔ _
        rw [SessionRow.copyHistory, mem_filter, contains_iff_mem, hIds]
        constructor
        · rintro ⟨mem, isCopied⟩
          obtain ⟨node, onBranch, same⟩ := mem_map.mp isCopied
          have onBranch := mem_reverse.mp onBranch
          rwa [← entry_unique keyed (listed node onBranch) mem same]
        · intro onBranch
          exact ⟨listed entry onBranch, mem_map_of_mem (mem_reverse.mpr onBranch)⟩
      · intro leafId isLeaf
        cases isLeaf
        exact ⟨leaf, rest, rfl, hLeaf, complete⟩

theorem CreatedSubagent.inherited (created : CreatedSubagent first) :
    ∃ branch, Inherited first branch := by
  cases created with
  | fresh child => exact ⟨[], .nothing child⟩
  | forked keyed forked => exact contextFork_inherited keyed forked

/-- A leaf that a session can stand at: the one it began with, or an entry of its own. -/
def StandsAt (first child : SessionRow) (leafId : Option EntryId) : Prop :=
  leafId = first.activeLeafId ∨
    ∃ entry ∈ child.entries, entry.id ∉ entryIds first.entries ∧ leafId = some entry.id

/-- Nothing that was inherited is lost, and the branch of a leaf is the branch that was
inherited with own entries below. -/
structure Grown (first child : SessionRow) (branch : List TranscriptStorageNode) : Prop where
  inherited : ∀ entry ∈ first.entries, entry ∈ child.entries
  distinct : (entryIds child.entries).Nodup
  leaf : StandsAt first child child.activeLeafId
  climbs : ∀ leafId, StandsAt first child leafId → ∃ own,
    (∀ entry ∈ own, entry ∈ child.entries ∧ entry.id ∉ entryIds first.entries) ∧
      (displayTree child.entries).Climbs leafId (own ++ branch)

theorem Inherited.grown {branch : List TranscriptStorageNode} (inherited : Inherited first branch) :
    Grown first first branch where
  inherited := fun _ mem => mem
  distinct := inherited.distinct
  leaf := .inl rfl
  climbs := by
    rintro leafId (rfl | ⟨_, mem, own, _⟩)
    · exact ⟨[], fun _ mem => absurd mem not_mem_nil, inherited.climbs⟩
    · exact absurd (mem_map_of_mem mem) own

theorem ShownBelow.climbs {stored path : List TranscriptStorageNode}
    {leafId lastId : Option EntryId} (shown : ShownBelow leafId entries lastId)
    (climbs : (displayTree stored).Climbs leafId path)
    (found : ∀ entry ∈ entries, findEntry stored entry.id = some entry) :
    (∀ entry ∈ entries, ∃ below, (∀ later ∈ below, later ∈ entries) ∧
      (displayTree stored).Climbs (some entry.id) (below ++ path)) ∧
    (lastId = leafId ∨ ∃ entry ∈ entries, lastId = some entry.id) := by
  induction entries generalizing leafId path with
  | nil => exact ⟨fun _ mem => absurd mem not_mem_nil, .inl shown⟩
  | cons first _ ih =>
    obtain ⟨above, below⟩ := shown
    have firstClimbs : (displayTree stored).Climbs (some first.id) (first :: path) := by
      refine .node (found first (.head _)) ?_
      show (displayTree stored).Climbs (displayParentId first) path
      rwa [above]
    obtain ⟨restClimbs, hLast⟩ := ih below firstClimbs (forall_mem_cons.mp found).2
    constructor
    · intro entry mem
      rcases mem_cons.mp mem with rfl | later
      · exact ⟨[entry], fun other isEntry => mem_singleton.mp isEntry ▸ mem_cons_self, firstClimbs⟩
      · obtain ⟨between, listed, _⟩ := restClimbs entry later
        refine ⟨between ++ [first], ?_, ?_⟩
        · intro other isBetween
          rcases Library.mem_concat.mp isBetween with isLater | isFirst
          · exact .tail _ (listed other isLater)
          · exact isFirst ▸ mem_cons_self
        · rwa [append_assoc]
    · right
      rcases hLast with isFirst | ⟨entry, mem, isEntry⟩
      · exact ⟨first, .head _, isFirst⟩
      · exact ⟨entry, .tail _ mem, isEntry⟩

namespace Grown

variable {first child : SessionRow} {branch : List TranscriptStorageNode}

section

variable (grown : Grown first child branch)
include grown

theorem standsAt_known (inherited : Inherited first branch) {id : EntryId}
    (stands : StandsAt first child (some id)) : id ∈ entryIds child.entries := by
  rcases stands with isFirst | ⟨entry, mem, _, isEntry⟩
  · obtain ⟨leaf, _, hBranch, rfl, _⟩ := inherited.complete id isFirst.symm
    have onBranch : leaf ∈ branch := hBranch ▸ mem_cons_self
    exact mem_map_of_mem (grown.inherited leaf ((inherited.stored leaf).mpr onBranch))
  · cases isEntry
    exact mem_map_of_mem mem

theorem install_entries {entries : List TranscriptStorageNode}
    (drawn : DrawnFor child.entries entries) (lastId : Option EntryId) :
    (child.install entries lastId).entries = child.entries ++ entries ∧
      (entryIds (child.entries ++ entries)).Nodup := by
  have nodup : (entryIds (child.database.entries ++ entries)).Nodup := by
    rw [entryIds_append, nodup_append']
    refine ⟨grown.distinct, drawn.1, ?_⟩
    intro id stored isNew
    obtain ⟨entry, mem, rfl⟩ := mem_map.mp stored
    exact (drawn.2 entry.id isNew entry mem).1 rfl
  exact ⟨congrArg Database.entries (Database.insertEntries_of_nodup nodup), nodup⟩

section

variable (inherited : Inherited first branch)
include inherited

theorem install {entries : List TranscriptStorageNode} {leafId lastId : Option EntryId}
    (stands : StandsAt first child leafId) (shown : ShownBelow leafId entries lastId)
    (drawn : DrawnFor child.entries entries) :
    Grown first (child.install entries lastId) branch := by
  obtain ⟨hEntries, nodup⟩ := grown.install_entries drawn lastId
  have isOwn : ∀ entry ∈ entries, entry.id ∉ entryIds first.entries := by
    intro entry mem known
    obtain ⟨other, isFirst, same⟩ := mem_map.mp known
    exact (drawn.2 entry.id (mem_map_of_mem mem) other (grown.inherited other isFirst)).1 same
  -- No path leads to a new id, so the paths of the old leaves are still there.
  have kept : ∀ place path, StandsAt first child place →
      (displayTree child.entries).Climbs place path →
      (displayTree (child.entries ++ entries)).Climbs place path := by
    intro place path standsThere climbs
    refine climbs.transfer rfl fun named onPath => findEntry_append ?_
    intro isNew
    rcases onPath with rfl | ⟨node, mem, names⟩
    · obtain ⟨entry, mem, rfl⟩ := mem_map.mp (grown.standsAt_known inherited standsThere)
      exact (drawn.2 _ isNew entry mem).1 rfl
    · exact (drawn.2 named isNew node (climbs_listed climbs node mem)).2 names
  obtain ⟨own, ownListed, climbs⟩ := grown.climbs leafId stands
  obtain ⟨newClimbs, hLast⟩ := shown.climbs (kept leafId _ stands climbs) fun entry mem =>
    findEntry_of_mem nodup (mem_append_right _ mem)
  have wider : ∀ place, StandsAt first child place →
      StandsAt first (child.install entries lastId) place := by
    rintro place (isFirst | ⟨entry, mem, own, isEntry⟩)
    · exact .inl isFirst
    · exact .inr ⟨entry, hEntries ▸ mem_append_left _ mem, own, isEntry⟩
  constructor
  · intro entry mem
    rw [hEntries]
    exact mem_append_left _ (grown.inherited entry mem)
  · rwa [hEntries]
  · show StandsAt first (child.install entries lastId) lastId
    rcases hLast with rfl | ⟨entry, mem, rfl⟩
    · exact wider _ stands
    · exact .inr ⟨entry, hEntries ▸ mem_append_right _ mem, isOwn entry mem, rfl⟩
  · intro place standsThere
    rw [hEntries]
    rcases standsThere with isFirst | ⟨entry, mem, ownEntry, rfl⟩
    · obtain ⟨below, listed, climbs⟩ := grown.climbs place (.inl isFirst)
      exact ⟨below, fun later isBelow => ⟨mem_append_left _ (listed later isBelow).1,
        (listed later isBelow).2⟩, kept place _ (.inl isFirst) climbs⟩
    · rw [hEntries] at mem
      rcases mem_append.mp mem with old | new
      · have standsOld : StandsAt first child (some entry.id) := .inr ⟨entry, old, ownEntry, rfl⟩
        obtain ⟨below, listed, climbs⟩ := grown.climbs _ standsOld
        exact ⟨below, fun later isBelow => ⟨mem_append_left _ (listed later isBelow).1,
          (listed later isBelow).2⟩, kept _ _ standsOld climbs⟩
      · obtain ⟨below, listed, climbs⟩ := newClimbs entry new
        refine ⟨below ++ own, ?_, ?_⟩
        · intro later isBelow
          rcases mem_append.mp isBelow with isNew | isOld
          · exact ⟨mem_append_right _ (listed later isNew), isOwn later (listed later isNew)⟩
          · exact ⟨mem_append_left _ (ownListed later isOld).1, (ownListed later isOld).2⟩
        · rwa [append_assoc]

theorem record {step : TranscriptStep} {after : SessionRow}
    (recorded : child.record (entryIds first.entries) step = some after) :
    Grown first after branch := by
  cases step with
  | output =>
    rw [SessionRow.record] at recorded
    split at recorded
    · rename_i admitted
      cases recorded
      exact grown.install inherited grown.leaf admitted.1 admitted.2.1
    · cases recorded
  | compact job _ ids rootTimestampMs =>
    rw [SessionRow.record] at recorded
    split at recorded
    · rename_i admitted
      cases recorded
      obtain ⟨installs, drawn, continues⟩ := admitted
      have stands : StandsAt first child (some job.sourceLeafId) := by
        rw [SessionRow.canInstall] at installs
        split at installs
        · rw [← eq_of_beq installs]
          exact grown.leaf
        · rw [Bool.and_eq_true, contains_iff_mem, Bool.not_eq_true', contains_eq_mem,
            decide_eq_false_iff_not] at installs
          obtain ⟨entry, mem, same⟩ := mem_map.mp installs.1
          exact .inr ⟨entry, mem, same ▸ installs.2, same ▸ rfl⟩
      refine grown.install inherited stands (installedEntries_shown ?_ job ids rootTimestampMs) drawn
      intro entry mem summary isSummary
      have isUser := all_eq_true.mp continues entry mem
      rw [isSummary] at isUser
      cases isUser
    · cases recorded
  | work =>
    cases recorded
    exact
      { inherited := grown.inherited
        distinct := grown.distinct
        leaf := grown.leaf
        climbs := grown.climbs }

theorem run {steps : List TranscriptStep} {after : SessionRow}
    (ran : child.run (entryIds first.entries) steps = some after) : Grown first after branch := by
  induction steps generalizing child with
  | nil =>
    cases ran
    exact grown
  | cons _ _ ih =>
    obtain ⟨_, recorded, ranOn⟩ := bind_eq_some_iff.mp ran
    exact ih (grown.record inherited recorded) ranOn

end

theorem activeBranch :
    ∃ own, (∀ entry ∈ own, entry ∈ child.entries ∧ entry.id ∉ entryIds first.entries) ∧
      (displayTree child.entries).Climbs child.activeLeafId (own ++ branch) ∧
      child.activeBranch = .ok
        { sessionId := child.id
          activeLeafId := child.activeLeafId
          entries := (own ++ branch).reverse } := by
  obtain ⟨own, listed, climbs⟩ := grown.climbs _ grown.leaf
  refine ⟨own, listed, climbs, ?_⟩
  have stored := climbs_listed climbs
  rw [SessionRow.activeBranch, branchToRoot_of_climbs climbs stored]
  rfl

end

end Grown

end PiRelay.Store
