import Mathlib.Order.Interval.Set.Defs
import PiRelay.Library.Json
import PiRelay.Library.Ordered

/-! The rows of the event table and the pages they are read back in. -/
namespace PiRelay.Store

open List
open Library (Compares Json inOrder)

inductive EventType where
  | sessionCreated | sessionConfigured | mcpToolsAdded | sessionRecovered | sessionIdle
  | sessionWorkCancelled | subagentSpawned | subagentRunning | subagentIdle
  | inputQueued | inputPromoted | inputUpdated | inputCancelled | inputReordered
  | inputConsumed | inputAccepted | inputIgnored | historySwitched | historyCompacted
  | actionRequested | modelRequested | modelCompleted | modelError
  | toolRequested | toolStarted | toolCompleted | toolError
  | compactionRequested | compactionCompleted | compactionError
  | transcriptAppended | turnStarted | turnFinished | assistantMessage | workspaceFsChanged

structure EventFrame where
  eventId : Int
  event : EventType
  sessionId : String
  data : Json

structure EventReplayPage where
  events : List EventFrame
  nextAfterEventId : Option Int
  hasMore : Bool

def defaultEventReplayPageLimit : Int := 500
def maxEventReplayPageLimit : Int := 1000

variable (events : List EventFrame)

variable (sessionId : String)

def lastEventId : Int :=
  (((events.filter (·.sessionId = sessionId)).map (·.eventId)).max?).getD 0

def clearSessionEvents : List EventFrame :=
  events.filter (·.sessionId ≠ sessionId)

def boundedEventPage (limit : Nat) : EventReplayPage :=
  let hasMore := decide (limit < events.length)
  let events := events.take limit
  { events
    nextAfterEventId := if hasMore then events.getLast?.map (·.eventId) else none
    hasMore }

def earlierEvent (one other : EventFrame) : Bool := one.eventId < other.eventId

/-- The rows that the query selects, without its limit. -/
def eventsAfter (after : Int) : List EventFrame :=
  inOrder earlierEvent
    (events.filter fun event => event.sessionId = sessionId && after < event.eventId)

def eventsAfterPage (after limit : Option Int) : EventReplayPage :=
  let after := after.getD 0
  let limit := max 1 (min (limit.getD defaultEventReplayPageLimit) maxEventReplayPageLimit)
  boundedEventPage ((eventsAfter events sessionId after).take (limit.toNat + 1)) limit.toNat

theorem earlierEvent_compares : Compares earlierEvent EventFrame.eventId :=
  fun _ _ => decide_eq_true_iff

variable {events : List EventFrame} {sessionId : String} {event : EventFrame}

theorem mem_eventsAfter {after : Int} :
    event ∈ eventsAfter events sessionId after ↔
      event ∈ events ∧ event.sessionId = sessionId ∧ after < event.eventId := by
  simp [eventsAfter, Library.mem_inOrder]

theorem eventsAfter_increasing (distinct : (events.map (·.eventId)).Nodup) (sessionId : String)
    (after : Int) :
    (eventsAfter events sessionId after).Pairwise fun one other => one.eventId < other.eventId :=
  earlierEvent_compares.inOrder_increasing (distinct.sublist (filter_sublist.map _))

theorem length_eventsAfter (after : Int) :
    (eventsAfter events sessionId after).length =
      (events.filter fun event => event.sessionId = sessionId && after < event.eventId).length :=
  (Library.inOrder_perm _ _).length_eq

structure IsPage (rows : List EventFrame) (page : EventReplayPage) : Prop where
  isPrefix : page.events <+: rows
  hasMore : page.hasMore = page.nextAfterEventId.isSome
  complete : page.nextAfterEventId = none → page.events = rows
  last : ∀ cursor, page.nextAfterEventId = some cursor →
    ∃ event, page.events.getLast? = some event ∧ event.eventId = cursor

/-- A bounded page is the beginning of what is there. -/
theorem boundedEventPage_isPage (rows : List EventFrame) (limit : Nat) (positive : 0 < limit) :
    IsPage rows (boundedEventPage (rows.take (limit + 1)) limit) := by
  have bounded : (rows.take (limit + 1)).take limit = rows.take limit := by
    rw [take_take, min_eq_left (Nat.le_succ limit)]
  have more : limit < (rows.take (limit + 1)).length ↔ limit < rows.length := by
    rw [length_take]
    omega
  by_cases hMore : limit < rows.length
  · have nonempty : rows.take limit ≠ [] := by
      rw [Ne, take_eq_nil_iff]
      rintro (hZero | hNil)
      · omega
      · rw [hNil] at hMore
        exact absurd hMore (Nat.not_lt_zero limit)
    have hLast := getLast?_eq_some_getLast nonempty
    simp only [boundedEventPage, bounded, more, hMore, hLast, decide_true, if_true]
    exact ⟨ take_prefix _ _, rfl, nofun, fun cursor same =>
      ⟨_, hLast, Option.some.inj same⟩⟩
  · have whole := take_of_length_le (not_lt.mp hMore)
    simp only [boundedEventPage, bounded, more, hMore, whole, decide_false]
    exact ⟨prefix_refl _, rfl, fun _ => rfl, nofun⟩

theorem eventsAfterPage_isPage (events : List EventFrame) (sessionId : String)
    (after limit : Option Int) :
    IsPage (eventsAfter events sessionId (after.getD 0))
      (eventsAfterPage events sessionId after limit) :=
  boundedEventPage_isPage _ _ (by omega)

theorem mem_eventsAfterPage {after limit : Option Int}
    (mem : event ∈ (eventsAfterPage events sessionId after limit).events) :
    event ∈ events ∧ event.sessionId = sessionId ∧ after.getD 0 < event.eventId :=
  mem_eventsAfter.mp ((eventsAfterPage_isPage events sessionId after limit).isPrefix.subset mem)

section

variable (distinct : (events.map (·.eventId)).Nodup)
include distinct

theorem eventsAfterPage_increasing (sessionId : String) (after limit : Option Int) :
    (eventsAfterPage events sessionId after limit).events.Pairwise
      fun one other => one.eventId < other.eventId :=
  (eventsAfter_increasing distinct _ _).sublist
    (eventsAfterPage_isPage events sessionId after limit).isPrefix.sublist

theorem eventsAfterPage_last {after limit : Option Int} {cursor : Int}
    (more : (eventsAfterPage events sessionId after limit).nextAfterEventId = some cursor) :
    (∃ event ∈ (eventsAfterPage events sessionId after limit).events, event.eventId = cursor) ∧
      ∀ event ∈ (eventsAfterPage events sessionId after limit).events, event.eventId ≤ cursor := by
  obtain ⟨last, isLast, rfl⟩ := (eventsAfterPage_isPage events sessionId after limit).last _ more
  refine ⟨⟨last, mem_of_getLast? isLast, rfl⟩, fun event mem => ?_⟩
  have increasing := eventsAfterPage_increasing distinct sessionId after limit
  obtain ⟨_, split⟩ := getLast?_eq_some_iff.mp isLast
  rw [split, pairwise_append] at increasing
  rw [split] at mem
  rcases mem_append.mp mem with before | only
  · exact (increasing.2.2 event before last (.head _)).le
  · rw [mem_singleton.mp only]

/-- A stored event is on the page, or behind its cursor. -/
theorem eventsAfterPage_complete (after limit : Option Int) (stored : event ∈ events)
    (ofSession : event.sessionId = sessionId) (newer : after.getD 0 < event.eventId) :
    event ∈ (eventsAfterPage events sessionId after limit).events ∨
      ∃ cursor, (eventsAfterPage events sessionId after limit).nextAfterEventId = some cursor ∧
        cursor < event.eventId := by
  have isPage := eventsAfterPage_isPage events sessionId after limit
  have selected := mem_eventsAfter.mpr ⟨stored, ofSession, newer⟩
  have increasing := eventsAfter_increasing distinct sessionId (after.getD 0)
  cases hNext : (eventsAfterPage events sessionId after limit).nextAfterEventId with
  | none =>
    rw [isPage.complete hNext]
    exact .inl selected
  | some cursor =>
    obtain ⟨_, split⟩ := isPage.isPrefix
    rw [← split] at selected increasing
    rcases mem_append.mp selected with read | left
    · exact .inl read
    · obtain ⟨last, hLast, same⟩ := isPage.last cursor hNext
      have before := (pairwise_append.mp increasing).2.2 last (mem_of_getLast? hLast) event left
      exact .inr ⟨cursor, rfl, same ▸ before⟩

end

theorem eventsAfterPage_next_of_le {after : Int} (fits : ((events.filter fun event =>
      event.sessionId = sessionId && after < event.eventId).length : Int) ≤
        defaultEventReplayPageLimit) :
    (eventsAfterPage events sessionId (some after) none).nextAfterEventId = none := by
  have short : (eventsAfter events sessionId after).length ≤ 500 := by
    rw [length_eventsAfter]
    rw [defaultEventReplayPageLimit] at fits
    omega
  have limit : (max 1 (min defaultEventReplayPageLimit maxEventReplayPageLimit)).toNat = 500 := rfl
  simp only [eventsAfterPage, boundedEventPage, Option.getD_none, Option.getD_some, limit,
    length_take]
  rw [if_neg]
  rw [decide_eq_true_eq]
  omega

/-- The loop of the browser around `events.subscribe` from a cursor on: each request reads a
page of the table as it is then. -/
def subscribeEvents (sessionId : String) : List (List EventFrame) → Int → Option (List EventFrame)
  | [], _ => none
  | events :: later, cursor =>
    let page := eventsAfterPage events sessionId (some cursor) none
    if page.hasMore then do
      let rest ← subscribeEvents sessionId later (← page.nextAfterEventId)
      some (page.events ++ rest)
    else some page.events

/-- The pages are in order and have no event twice, and they do not pass over an event that is
in the table all the time. -/
theorem subscribeEvents_replays {tables : List (List EventFrame)} {cursor : Int}
    {replayed : List EventFrame} (distinct : ∀ events ∈ tables, (events.map (·.eventId)).Nodup)
    (read : subscribeEvents sessionId tables cursor = some replayed) :
    (replayed.Pairwise fun one other => one.eventId < other.eventId) ∧
      (∀ event ∈ replayed, event.sessionId = sessionId ∧ cursor < event.eventId ∧
        ∃ events ∈ tables, event ∈ events) ∧
      ∀ event, (∀ events ∈ tables, event ∈ events) → event.sessionId = sessionId →
        cursor < event.eventId → event ∈ replayed := by
  induction tables generalizing cursor replayed with
  | nil => cases read
  | cons events later ih =>
    obtain ⟨own, others⟩ := forall_mem_cons.mp distinct
    have isPage := eventsAfterPage_isPage events sessionId (some cursor) none
    have increasing := eventsAfterPage_increasing own sessionId (some cursor) none
    have selected := fun event => @mem_eventsAfterPage events sessionId event (some cursor) none
    have complete := fun event =>
      @eventsAfterPage_complete events sessionId event own (some cursor) none
    rw [subscribeEvents] at read
    cases next : (eventsAfterPage events sessionId (some cursor) none).nextAfterEventId with
    | none =>
      simp only [isPage.hasMore, next, Option.isSome_none] at read
      cases read
      grind
    | some last =>
      simp only [isPage.hasMore, next, Option.isSome_some, if_true, Option.bind_eq_bind,
        Option.bind_some, Option.bind_eq_some_iff] at read
      obtain ⟨rest, readRest, same⟩ := read
      cases same
      obtain ⟨restIncreasing, within, kept⟩ := ih others readRest
      obtain ⟨⟨final, inPage, isLast⟩, atMost⟩ := eventsAfterPage_last own next
      refine ⟨pairwise_append.mpr ⟨increasing, restIncreasing, ?_⟩, ?_, ?_⟩
      · grind
      · grind
      · grind

def numberedEvents (first count : Nat) : List EventFrame :=
  (range' first count).map fun (id : Nat) => ⟨id, .sessionIdle, "s", .null⟩

theorem numberedEvents_distinct (first count : Nat) :
    ((numberedEvents first count).map (·.eventId)).Nodup := by
  rw [numberedEvents, map_map]
  exact Nodup.map (fun _ _ same => Int.ofNat.inj same) List.nodup_range'

/-- Two pages. Between the requests the first event is cleared, and two are added. -/
theorem subscribeEvents_replays_pages : ∃ replayed,
    subscribeEvents "s" [numberedEvents 1 501, numberedEvents 2 502] 0 = some replayed ∧
      replayed.map (·.eventId) = (range' 1 503).map Int.ofNat ∧
      (replayed.Pairwise fun one other => one.eventId < other.eventId) ∧
      ∀ event, (∀ events ∈ [numberedEvents 1 501, numberedEvents 2 502], event ∈ events) →
        event.sessionId = "s" → 0 < event.eventId → event ∈ replayed := by
  have ids : (subscribeEvents "s" [numberedEvents 1 501, numberedEvents 2 502] 0).map
      (·.map (·.eventId)) = some ((range' 1 503).map Int.ofNat) := by
    decide +kernel
  obtain ⟨replayed, read, readIds⟩ := Option.map_eq_some_iff.mp ids
  have distinct : ∀ events ∈ [numberedEvents 1 501, numberedEvents 2 502],
      (events.map (·.eventId)).Nodup := by
    simp [numberedEvents_distinct]
  obtain ⟨increasing, -, kept⟩ := subscribeEvents_replays distinct read
  exact ⟨replayed, read, readIds, increasing, kept⟩

end PiRelay.Store
