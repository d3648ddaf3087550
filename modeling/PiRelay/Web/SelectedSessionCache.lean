import Mathlib.Data.List.Basic
import Mathlib.Order.Lattice

/-! The counters of a cached session. Answers of the server and its events come in any order;
some calls take the greater counter, and some overwrite what is there. -/
namespace PiRelay.Web

open List

structure SessionSnapshot where
  activeLeafId : Option String
  sessionRevision : Option Int
  queueRevision : Option Int
  transcriptRevision : Option Int
  lastEventId : Int
deriving DecidableEq

/-- The bodies, the tree and the cards are left out. -/
structure SelectedSessionCache where
  sessionId : Option String
  snapshot : Option SessionSnapshot
  activeBranchEntryIds : List String
  turnTranscriptRevision : Option Int
  turnActiveLeafId : Option String
  turnBeforeEntryId : Option String
deriving DecidableEq

/-- The revisions of one state of the server. -/
structure ServerRevisions where
  sessionRevision : Int
  queueRevision : Int
  transcriptRevision : Int

structure TranscriptTurnsResult where
  sessionId : String
  activeLeafId : Option String
  sessionRevision : Int
  transcriptRevision : Int
  beforeEntryId : Option String
  nextBeforeEntryId : Option String
  /-- The cards, the bodies and the flags are those of the cache. -/
  sameCards : Bool

structure TranscriptTreeIndex where
  sessionId : String
  sessionRevision : Int
  transcriptRevision : Int

/-- An event that an entry was appended, with what could be read of it. -/
structure TranscriptAppended where
  sessionId : String
  eventId : Int
  /-- The entry, with its parent on display. -/
  entry : Option (String × Option String)
  sessionRevision : Option Int
  queueRevision : Option Int
  transcriptRevision : Option Int
  activeLeafId : Option String

inductive TurnsMode where
  | replace
  | prepend
deriving DecidableEq

/-- What an appended entry makes of the snapshot, whether it is on the active branch or not. -/
def SessionSnapshot.appended (snapshot : SessionSnapshot) (event : TranscriptAppended) :
    SessionSnapshot where
  activeLeafId := event.activeLeafId <|> snapshot.activeLeafId
  sessionRevision := some ((event.sessionRevision <|> snapshot.sessionRevision).getD 0)
  queueRevision := some ((event.queueRevision <|> snapshot.queueRevision).getD 0)
  transcriptRevision := some ((event.transcriptRevision <|> snapshot.transcriptRevision).getD 0)
  lastEventId := max snapshot.lastEventId event.eventId

namespace SelectedSessionCache

variable (cache : SelectedSessionCache)

def applyTreeIndex (index : TranscriptTreeIndex) : SelectedSessionCache :=
  if cache.sessionId ≠ some index.sessionId then cache
  else
    { cache with
      snapshot := cache.snapshot.map fun snapshot =>
        { snapshot with
          sessionRevision := some (max (snapshot.sessionRevision.getD 0) index.sessionRevision)
          transcriptRevision :=
            some (max (snapshot.transcriptRevision.getD 0) index.transcriptRevision) } }

def applyQueueProjection (sessionId : String) (queue : ServerRevisions) : SelectedSessionCache :=
  match cache.snapshot with
  | none => cache
  | some snapshot =>
    if cache.sessionId ≠ some sessionId then cache
    else if snapshot.queueRevision.getD (-1) > queue.queueRevision then cache
    else
      { cache with
        snapshot := some
          { snapshot with
            sessionRevision := some queue.sessionRevision
            queueRevision := some queue.queueRevision
            transcriptRevision := some queue.transcriptRevision } }

def applyEventHighWater (sessionId : String) (eventId : Int) : SelectedSessionCache :=
  match cache.snapshot with
  | none => cache
  | some snapshot =>
    if cache.sessionId ≠ some sessionId ∨ snapshot.lastEventId ≥ eventId then cache
    else { cache with snapshot := some { snapshot with lastEventId := eventId } }

def mergeSessionActivityEvent (sessionId : String) (eventId : Int) : SelectedSessionCache :=
  match cache.snapshot with
  | none => cache
  | some snapshot =>
    if cache.sessionId ≠ some sessionId then cache
    else
      { cache with
        snapshot := some { snapshot with lastEventId := max snapshot.lastEventId eventId } }

def applyTranscriptAppendedEvent (event : TranscriptAppended) : SelectedSessionCache :=
  match cache.snapshot, event.entry with
  | some snapshot, some (id, displayParentId) =>
    let appendsToActiveBranch := displayParentId = cache.activeBranchEntryIds.getLast?
    if cache.sessionId ≠ some event.sessionId then cache
    else if ¬ appendsToActiveBranch ∧ event.activeLeafId = some id ∧ id ≠ "" then
      { cache with snapshot := some (snapshot.appended event) }
    else
      { cache with
        snapshot := some (snapshot.appended event)
        activeBranchEntryIds := if appendsToActiveBranch then cache.activeBranchEntryIds ++ [id]
          else cache.activeBranchEntryIds
        turnTranscriptRevision := event.transcriptRevision <|> cache.turnTranscriptRevision
        turnActiveLeafId := event.activeLeafId <|> cache.turnActiveLeafId }
  | _, _ => cache

section

variable (result : TranscriptTurnsResult)

def canPrependTranscriptTurns : Bool :=
  cache.turnTranscriptRevision == some result.transcriptRevision &&
    cache.turnActiveLeafId == result.activeLeafId && cache.turnBeforeEntryId == result.beforeEntryId

def isStaleTranscriptTurnsResult : Bool :=
  let snapshotRevision := cache.snapshot.bind (·.transcriptRevision)
  let knownRevision := max (cache.turnTranscriptRevision.getD (-1)) (snapshotRevision.getD (-1))
  let knownActiveLeafId := cache.snapshot.bind (·.activeLeafId) <|> cache.turnActiveLeafId
  (knownRevision ≥ 0 && result.transcriptRevision < knownRevision) ||
    (result.transcriptRevision == knownRevision && knownActiveLeafId != result.activeLeafId)

def applyTranscriptTurns (mode : TurnsMode) : SelectedSessionCache :=
  if cache.sessionId ≠ some result.sessionId then cache
  else if mode = .prepend ∧ cache.canPrependTranscriptTurns result = false then cache
  else if mode = .replace ∧ cache.isStaleTranscriptTurnsResult result then cache
  else
    let next :=
      { cache with
        snapshot := cache.snapshot.map fun snapshot =>
          { snapshot with
            activeLeafId := result.activeLeafId
            sessionRevision := some (max (snapshot.sessionRevision.getD 0) result.sessionRevision)
            transcriptRevision :=
              some (max (snapshot.transcriptRevision.getD 0) result.transcriptRevision) }
        activeBranchEntryIds := (result.activeLeafId.filter (· ≠ "")).toList
        turnTranscriptRevision := some result.transcriptRevision
        turnActiveLeafId := result.activeLeafId
        turnBeforeEntryId := result.nextBeforeEntryId }
    if mode = .prepend ∧ result.sameCards ∧ next = cache then cache else next

end

end SelectedSessionCache

inductive CacheCall where
  | applyTreeIndex (index : TranscriptTreeIndex)
  | applyQueueProjection (sessionId : String) (queue : ServerRevisions)
  | applyEventHighWater (sessionId : String) (eventId : Int)
  | mergeSessionActivityEvent (sessionId : String) (eventId : Int)
  | applyTranscriptAppendedEvent (event : TranscriptAppended)
  | applyTranscriptTurns (result : TranscriptTurnsResult) (mode : TurnsMode)

namespace CacheCall

def apply (cache : SelectedSessionCache) : CacheCall → SelectedSessionCache
  | .applyTreeIndex index => cache.applyTreeIndex index
  | .applyQueueProjection sessionId queue => cache.applyQueueProjection sessionId queue
  | .applyEventHighWater sessionId eventId => cache.applyEventHighWater sessionId eventId
  | .mergeSessionActivityEvent sessionId eventId =>
    cache.mergeSessionActivityEvent sessionId eventId
  | .applyTranscriptAppendedEvent event => cache.applyTranscriptAppendedEvent event
  | .applyTranscriptTurns result mode => cache.applyTranscriptTurns result mode

def Reports (history : List ServerRevisions) : CacheCall → Prop
  | .applyTreeIndex index => ∃ state ∈ history, index.sessionRevision = state.sessionRevision ∧
      index.transcriptRevision = state.transcriptRevision
  | .applyQueueProjection _ queue => queue ∈ history
  | .applyTranscriptAppendedEvent event => ∃ state ∈ history,
      event.sessionRevision = some state.sessionRevision ∧
        event.queueRevision = some state.queueRevision ∧
          event.transcriptRevision = some state.transcriptRevision
  | .applyTranscriptTurns result _ => ∃ state ∈ history,
      result.sessionRevision = state.sessionRevision ∧
        result.transcriptRevision = state.transcriptRevision
  | _ => True

def eventId : CacheCall → Option Int
  | .applyEventHighWater _ eventId | .mergeSessionActivityEvent _ eventId => some eventId
  | .applyTranscriptAppendedEvent event => some event.eventId
  | _ => none

/-- No counter that is reported is behind the one that is there. -/
def NotBehind (reported revision : Option Int) : Prop :=
  ∀ new ∈ reported, ∀ old ∈ revision, old ≤ new

/-- What the call overwrites is not ahead of what it reports. -/
def UpToDate (cache : SelectedSessionCache) : CacheCall → Prop
  | .applyQueueProjection sessionId queue => cache.sessionId = some sessionId →
      ∀ snapshot ∈ cache.snapshot, snapshot.queueRevision.getD (-1) ≤ queue.queueRevision →
        NotBehind queue.sessionRevision snapshot.sessionRevision ∧
          NotBehind queue.transcriptRevision snapshot.transcriptRevision
  | .applyTranscriptAppendedEvent event => cache.sessionId = some event.sessionId →
      event.entry.isSome → ∀ snapshot ∈ cache.snapshot,
        NotBehind event.sessionRevision snapshot.sessionRevision ∧
          NotBehind event.queueRevision snapshot.queueRevision ∧
            NotBehind event.transcriptRevision snapshot.transcriptRevision
  | _ => True

end CacheCall

/-- A counter has not fallen. One that is missing is below all others. -/
def Rises (before after : Option Int) : Prop := ∀ old ∈ before, ∃ new ∈ after, old ≤ new

theorem rises_refl (revision : Option Int) : Rises revision revision := fun old isOld =>
  ⟨old, isOld, le_rfl⟩

theorem rises_some {before : Option Int} {new : Int} :
    Rises before (some new) ↔ CacheCall.NotBehind new before := by
  simp [Rises, CacheCall.NotBehind]

theorem rises_max (before : Option Int) (new : Int) :
    Rises before (some (max (before.getD 0) new)) := by
  rw [rises_some]
  rintro _ ⟨⟩ old rfl
  exact le_max_left _ _

theorem rises_reported {before reported : Option Int} :
    Rises before (some ((reported <|> before).getD 0)) ↔ CacheCall.NotBehind reported before := by
  rw [rises_some]
  cases reported with
  | none =>
    refine iff_of_true ?_ nofun
    rintro _ ⟨⟩ old rfl
    exact le_rfl
  | some => rfl

structure SessionSnapshot.RisesTo (before after : SessionSnapshot) : Prop where
  session : Rises before.sessionRevision after.sessionRevision
  queue : Rises before.queueRevision after.queueRevision
  transcript : Rises before.transcriptRevision after.transcriptRevision
  event : before.lastEventId ≤ after.lastEventId

namespace SelectedSessionCache

/-- The snapshot is kept, and none of its counters has fallen. -/
def RisesTo (before after : SelectedSessionCache) : Prop :=
  ∀ snapshot ∈ before.snapshot, ∃ later ∈ after.snapshot, snapshot.RisesTo later

variable {before middle after cache : SelectedSessionCache}

theorem RisesTo.refl (cache : SelectedSessionCache) : cache.RisesTo cache := fun snapshot isOld =>
  ⟨snapshot, isOld, rises_refl _, rises_refl _, rises_refl _, le_rfl⟩

theorem RisesTo.trans (first : before.RisesTo middle) (second : middle.RisesTo after) :
    before.RisesTo after := by
  have rises : ∀ {one two three : Option Int}, Rises one two → Rises two three →
      Rises one three := by
    intro one two three first second old isOld
    obtain ⟨new, isNew, atMost⟩ := first old isOld
    exact (second new isNew).imp fun last isLast => ⟨isLast.1, atMost.trans isLast.2⟩
  intro snapshot isOld
  obtain ⟨next, isNext, risen⟩ := first snapshot isOld
  obtain ⟨later, isLater, further⟩ := second next isNext
  exact ⟨later, isLater, rises risen.session further.session, rises risen.queue further.queue,
    rises risen.transcript further.transcript, risen.event.trans further.event⟩

theorem risesTo_some {snapshot later : SessionSnapshot} (isOld : before.snapshot = some snapshot)
    (isNew : after.snapshot = some later) : before.RisesTo after ↔ snapshot.RisesTo later := by
  simp [RisesTo, isOld, isNew]

section

variable {snapshot : SessionSnapshot} (isSnapshot : cache.snapshot = some snapshot)
include isSnapshot

theorem applyTreeIndex_rises (index : TranscriptTreeIndex) :
    cache.RisesTo (cache.applyTreeIndex index) := by
  rw [applyTreeIndex]
  split
  · exact .refl cache
  · rw [risesTo_some isSnapshot (by rw [isSnapshot]; rfl)]
    exact ⟨rises_max _ _, rises_refl _, rises_max _ _, le_rfl⟩

/-- The revision of the queue is compared; the two others are overwritten. -/
theorem applyQueueProjection_rises_iff (sessionId : String) (queue : ServerRevisions) :
    cache.RisesTo (cache.applyQueueProjection sessionId queue) ↔
      (CacheCall.applyQueueProjection sessionId queue).UpToDate cache := by
  simp only [applyQueueProjection, isSnapshot, CacheCall.UpToDate]
  split
  · rename_i foreign
    exact iff_of_true (.refl cache) fun own => absurd own foreign
  · rename_i own
    split
    · rename_i behind
      refine iff_of_true (.refl cache) fun _ other isOther ahead => ?_
      cases isOther
      omega
    · rename_i ahead
      rw [risesTo_some isSnapshot rfl]
      have queueRises : Rises snapshot.queueRevision (some queue.queueRevision) := by
        rw [rises_some]
        rintro _ ⟨⟩ old isOld
        rw [isOld] at ahead
        simpa using ahead
      constructor
      · intro rises _ other isOther _
        cases isOther
        exact ⟨rises_some.mp rises.session, rises_some.mp rises.transcript⟩
      · intro upToDate
        obtain ⟨session, transcript⟩ := upToDate (not_not.mp own) snapshot rfl (not_lt.mp ahead)
        exact ⟨rises_some.mpr session, queueRises, rises_some.mpr transcript, le_rfl⟩

theorem applyEventHighWater_rises (sessionId : String) (eventId : Int) :
    cache.RisesTo (cache.applyEventHighWater sessionId eventId) := by
  simp only [applyEventHighWater, isSnapshot]
  split
  · exact .refl cache
  · rename_i newer
    rw [risesTo_some isSnapshot rfl]
    refine ⟨rises_refl _, rises_refl _, rises_refl _, ?_⟩
    show snapshot.lastEventId ≤ eventId
    omega

theorem mergeSessionActivityEvent_rises (sessionId : String) (eventId : Int) :
    cache.RisesTo (cache.mergeSessionActivityEvent sessionId eventId) := by
  simp only [mergeSessionActivityEvent, isSnapshot]
  split
  · exact .refl cache
  · rw [risesTo_some isSnapshot rfl]
    exact ⟨rises_refl _, rises_refl _, rises_refl _, le_max_left _ _⟩

/-- All three revisions are overwritten, where the event reports them. -/
theorem applyTranscriptAppendedEvent_rises_iff (event : TranscriptAppended) :
    cache.RisesTo (cache.applyTranscriptAppendedEvent event) ↔
      (CacheCall.applyTranscriptAppendedEvent event).UpToDate cache := by
  have stays := RisesTo.refl cache
  cases isEntry : event.entry with
  | none =>
    refine iff_of_true ?_ ?_
    · simpa only [applyTranscriptAppendedEvent, isSnapshot, isEntry] using stays
    · simp [CacheCall.UpToDate, isEntry]
  | some entry =>
    by_cases own : cache.sessionId = some event.sessionId
    · have isNew : (cache.applyTranscriptAppendedEvent event).snapshot =
          some (snapshot.appended event) := by
        simp only [applyTranscriptAppendedEvent, isSnapshot, isEntry, own]
        split <;> first | contradiction | (split <;> rfl)
      rw [risesTo_some isSnapshot isNew]
      constructor
      · intro rises _ _ other isOther
        obtain rfl := Option.some.inj (isSnapshot.symm.trans isOther)
        exact ⟨rises_reported.mp rises.session, rises_reported.mp rises.queue,
          rises_reported.mp rises.transcript⟩
      · intro upToDate
        obtain ⟨session, queue, transcript⟩ := upToDate own (by simp [isEntry]) snapshot isSnapshot
        exact ⟨rises_reported.mpr session, rises_reported.mpr queue,
          rises_reported.mpr transcript, le_max_left _ _⟩
    · refine iff_of_true ?_ fun isOwn => absurd isOwn own
      simpa only [applyTranscriptAppendedEvent, isSnapshot, isEntry, if_pos own] using stays

theorem applyTranscriptTurns_rises (result : TranscriptTurnsResult) (mode : TurnsMode) :
    cache.RisesTo (cache.applyTranscriptTurns result mode) := by
  rw [applyTranscriptTurns]
  split
  · exact .refl cache
  split
  · exact .refl cache
  split
  · exact .refl cache
  dsimp only
  split
  · exact .refl cache
  · rw [risesTo_some isSnapshot (by rw [isSnapshot]; rfl)]
    exact ⟨rises_max _ _, rises_refl _, rises_max _ _, le_rfl⟩

end

/-- A call lowers no counter just when it is up to date. -/
theorem risesTo_apply_iff {call : CacheCall} :
    cache.RisesTo (call.apply cache) ↔ call.UpToDate cache := by
  cases isSnapshot : cache.snapshot with
  | none =>
    refine iff_of_true (by simp [RisesTo, isSnapshot]) ?_
    cases call <;> simp [CacheCall.UpToDate, isSnapshot]
  | some snapshot =>
    cases call with
    | applyTreeIndex index => exact iff_of_true (applyTreeIndex_rises isSnapshot index) trivial
    | applyQueueProjection sessionId queue =>
      exact applyQueueProjection_rises_iff isSnapshot sessionId queue
    | applyEventHighWater sessionId eventId =>
      exact iff_of_true (applyEventHighWater_rises isSnapshot sessionId eventId) trivial
    | mergeSessionActivityEvent sessionId eventId =>
      exact iff_of_true (mergeSessionActivityEvent_rises isSnapshot sessionId eventId) trivial
    | applyTranscriptAppendedEvent event =>
      exact applyTranscriptAppendedEvent_rises_iff isSnapshot event
    | applyTranscriptTurns result mode =>
      exact iff_of_true (applyTranscriptTurns_rises isSnapshot result mode) trivial

/-- Between any two moments of the run no counter falls. -/
def NeverFalls (cache : SelectedSessionCache) (calls : List CacheCall) : Prop :=
  ∀ done later rest, calls = done ++ later ++ rest →
    (done.foldl CacheCall.apply cache).RisesTo ((done ++ later).foldl CacheCall.apply cache)

/-- The counters never fall just when every call that overwrites them is up to date. -/
theorem never_falls_iff (cache : SelectedSessionCache) (calls : List CacheCall) :
    cache.NeverFalls calls ↔ ∀ done call rest, calls = done ++ call :: rest →
      call.UpToDate (done.foldl CacheCall.apply cache) := by
  constructor
  · intro never done call rest isRun
    have rises := never done [call] rest (by simp [isRun])
    rwa [foldl_append, foldl_cons, foldl_nil, risesTo_apply_iff] at rises
  · intro upToDate done later
    induction later generalizing done with
    | nil =>
      intro _ _
      rw [append_nil]
      exact .refl _
    | cons call later ih =>
      intro rest isRun
      have first := risesTo_apply_iff.mpr (upToDate done call (later ++ rest) (by simp [isRun]))
      have others := ih (done ++ [call]) rest (by simp [isRun])
      rw [foldl_append, append_assoc] at others
      exact first.trans others

/-- An entry was appended; an answer to an edit of the queue was made before, and comes after. -/
theorem overtaken_projection_falls : ¬ ∀ (history : List ServerRevisions) cache calls,
    (history.Pairwise fun one other => one.sessionRevision ≤ other.sessionRevision ∧
      one.queueRevision ≤ other.queueRevision ∧
        one.transcriptRevision ≤ other.transcriptRevision) →
      (∀ call ∈ calls, CacheCall.Reports history call) →
        (calls.filterMap CacheCall.eventId).Pairwise (· < ·) → NeverFalls cache calls := by
  intro never
  let cache : SelectedSessionCache :=
    ⟨some "s", some ⟨none, some 1, some 1, some 1, 4⟩, [], some 1, none, none⟩
  let appended : CacheCall :=
    .applyTranscriptAppendedEvent ⟨"s", 5, some ("e", none), some 2, some 1, some 2, some "e"⟩
  let answer : CacheCall := .applyQueueProjection "s" ⟨1, 1, 1⟩
  have rises : (appended.apply cache).RisesTo (answer.apply (appended.apply cache)) :=
    never [⟨1, 1, 1⟩, ⟨2, 1, 2⟩] cache [appended, answer] (by simp)
      (by simp [appended, answer, CacheCall.Reports]) (pairwise_singleton _ _)
      [appended] [answer] [] rfl
  obtain ⟨late, -⟩ := risesTo_apply_iff.mp rises rfl _ rfl (by decide)
  exact absurd (late 1 rfl 2 rfl) (by decide)

end SelectedSessionCache

end PiRelay.Web
