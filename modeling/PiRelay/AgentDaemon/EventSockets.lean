import PiRelay.AgentDaemon.EventFeed

/-! A socket takes the events of one session as a receiver with a mark does: live frames and
the pages of a catch-up are offered to it, and its first subscription starts it with a page. -/
namespace PiRelay.Runtime

open List
open Library (Receiver)
open Store (EventFrame eventsAfterPage)

namespace Socket

def receiver (socket : Socket) (sessionId : String) : Receiver Int EventFrame where
  mark := socket.highWater sessionId
  taken := socket.sent.filter fun event => event.sessionId = sessionId && 0 < event.eventId

variable {socket : Socket} {sessionId other : String} {event : EventFrame}

theorem receiver_next (next : Nat) :
    ({ socket with next := next }).receiver sessionId = socket.receiver sessionId := rfl

theorem accept_receiver (ofSession : event.sessionId = other) (positive : 0 < event.eventId) :
    (if event.eventId ≤ socket.highWater other then socket
      else (socket.insertHighWater other event.eventId).send [event]).receiver sessionId =
      if other = sessionId then (socket.receiver sessionId).offer (·.eventId) event
      else socket.receiver sessionId := by
  by_cases same : other = sessionId
  · subst same
    rw [if_pos rfl]
    rcases le_or_gt event.eventId (socket.highWater other) with old | new
    · rw [if_pos old, Receiver.offer_of_le old]
    · rw [if_neg (not_le.mpr new), Receiver.offer_of_lt new]
      simp [receiver, insertHighWater, send, highWater, ofSession, positive]
  · rw [if_neg same]
    have apart : event.sessionId ≠ sessionId := fun h => same (ofSession.symm.trans h)
    split
    · rfl
    · simp [receiver, insertHighWater, send, highWater, apart, Function.update_of_ne (Ne.symm same)]

theorem forward_receiver (positive : 0 < event.eventId) :
    (socket.forward event).receiver sessionId =
      if event.sessionId = sessionId ∧ sessionId ∈ socket.subscriptions then
        (socket.receiver sessionId).offer (·.eventId) event
      else socket.receiver sessionId := by
  by_cases subscribed : event.sessionId ∈ socket.subscriptions
  · rw [forward, if_pos subscribed, if_pos positive, accept_receiver rfl positive]
    by_cases same : event.sessionId = sessionId
    · rw [if_pos same, if_pos ⟨same, same ▸ subscribed⟩]
    · rw [if_neg same, if_neg fun h => same h.1]
  · rw [forward, if_neg subscribed, if_neg]
    rintro ⟨same, mem⟩
    exact subscribed (same ▸ mem)

theorem forward_receiver_ephemeral (ephemeral : event.eventId ≤ 0) :
    (socket.forward event).receiver sessionId = socket.receiver sessionId := by
  rw [forward, if_neg (not_lt.mpr ephemeral)]
  split
  · simp [receiver, send, highWater, not_lt.mpr ephemeral]
  · rfl

theorem replay_receiver (ofSession : event.sessionId = other) (positive : 0 < event.eventId) :
    (replay other socket event).receiver sessionId =
      if other = sessionId then (socket.receiver sessionId).offer (·.eventId) event
      else socket.receiver sessionId :=
  accept_receiver ofSession positive

theorem foldl_replay_receiver (events : List EventFrame)
    (ofSession : ∀ event ∈ events, event.sessionId = other ∧ 0 < event.eventId) :
    (events.foldl (replay other) socket).receiver sessionId =
      if other = sessionId then (socket.receiver sessionId).offerAll (·.eventId) events
      else socket.receiver sessionId := by
  induction events generalizing socket with
  | nil => simp
  | cons event _ ih =>
    obtain ⟨same, positive⟩ := ofSession event (.head _)
    rw [foldl_cons, ih (forall_mem_cons.mp ofSession).2, replay_receiver same positive]
    split <;> rfl

/-- The fields that an event which is sent does not touch. -/
structure SameRest (socket after : Socket) : Prop where
  subscriptions : after.subscriptions = socket.subscriptions
  next : after.next = socket.next
  point : after.point = socket.point

theorem replay_sameRest (socket : Socket) (other : String) (event : EventFrame) :
    socket.SameRest (replay other socket event) := by
  rw [replay]
  split <;> exact ⟨rfl, rfl, rfl⟩

theorem forward_sameRest (socket : Socket) (event : EventFrame) :
    socket.SameRest (socket.forward event) := by
  rw [forward]
  split
  · split
    · split <;> exact ⟨rfl, rfl, rfl⟩
    · exact ⟨rfl, rfl, rfl⟩
  · exact ⟨rfl, rfl, rfl⟩

theorem foldl_replay_sameRest (events : List EventFrame) :
    socket.SameRest (events.foldl (replay other) socket) := by
  induction events generalizing socket with
  | nil => exact ⟨rfl, rfl, rfl⟩
  | cons event _ ih =>
    have first := replay_sameRest socket other event
    have later := @ih (replay other socket event)
    exact ⟨later.subscriptions.trans first.subscriptions, later.next.trans first.next,
      later.point.trans first.point⟩

variable {sent : EventFrame}

theorem mem_sent_replay (mem : sent ∈ (replay other socket event).sent) :
    sent ∈ socket.sent ∨ sent = event := by
  rw [replay] at mem
  split at mem
  · exact .inl mem
  · simpa [send, insertHighWater] using mem

theorem mem_sent_forward (mem : sent ∈ (socket.forward event).sent) :
    sent ∈ socket.sent ∨ sent = event := by
  rw [forward] at mem
  split at mem
  · split at mem
    · split at mem
      · exact .inl mem
      · simpa [send, insertHighWater] using mem
    · simpa [send] using mem
  · exact .inl mem

theorem mem_sent_foldl_replay (events : List EventFrame)
    (mem : sent ∈ (events.foldl (replay other) socket).sent) :
    sent ∈ socket.sent ∨ sent ∈ events := by
  induction events generalizing socket with
  | nil => exact .inl mem
  | cons _ _ ih =>
    rcases ih mem with before | later
    · rcases mem_sent_replay before with old | rfl
      · exact .inl old
      · exact .inr (.head _)
    · exact .inr (.tail _ later)

variable (sessions : List String)

theorem catchUp_receiver :
    (socket.catchUp sessions).receiver sessionId = socket.receiver sessionId := by
  cases sessions <;> rfl

@[simp] theorem catchUp_subscriptions :
    (socket.catchUp sessions).subscriptions = socket.subscriptions := by
  cases sessions <;> rfl

@[simp] theorem catchUp_next : (socket.catchUp sessions).next = socket.next := by
  cases sessions <;> rfl

@[simp] theorem catchUp_sent : (socket.catchUp sessions).sent = socket.sent := by
  cases sessions <;> rfl

variable {events : List EventFrame} {cursor : Option Int} {rest : List String}

def toCatch (socket : Socket) : List String :=
  match socket.point with
  | .catching sessionId _ rest => sessionId :: rest
  | _ => []

theorem catchUp_toCatch : (socket.catchUp sessions).toCatch = sessions := by
  cases sessions <;> rfl

theorem catchUp_point : (socket.catchUp sessions).point ≠ .closed := by
  cases sessions <;> nofun

theorem catchUp_cursor {sessions : List String}
    (catching : (socket.catchUp sessions).point = .catching sessionId cursor rest) :
    cursor.getD 0 = (socket.catchUp sessions).highWater sessionId := by
  cases sessions with
  | nil => cases catching
  | cons =>
    cases catching
    rfl

theorem readPage_of_none
    (last : (eventsAfterPage events other cursor none).nextAfterEventId = none) :
    socket.readPage events other cursor rest =
      ((eventsAfterPage events other cursor none).events.foldl (replay other) socket).catchUp
        rest := by
  rw [readPage, if_neg]
  rw [(Store.eventsAfterPage_isPage events other cursor none).hasMore, last]
  nofun

theorem readPage_of_some {next : Int}
    (more : (eventsAfterPage events other cursor none).nextAfterEventId = some next) :
    socket.readPage events other cursor rest =
      { (eventsAfterPage events other cursor none).events.foldl (replay other) socket with
        point := .catching other (some next) rest } := by
  rw [readPage, if_pos, more]
  rw [(Store.eventsAfterPage_isPage events other cursor none).hasMore, more]
  rfl

theorem readPage_eq (socket : Socket) (events : List EventFrame) (other : String)
    (cursor : Option Int) (rest : List String) :
    ∃ point, socket.readPage events other cursor rest =
      { (eventsAfterPage events other cursor none).events.foldl (replay other) socket with
        point } := by
  cases hNext : (eventsAfterPage events other cursor none).nextAfterEventId with
  | some => exact ⟨_, readPage_of_some hNext⟩
  | none =>
    rw [readPage_of_none hNext]
    cases rest <;> exact ⟨_, rfl⟩

theorem readPage_subscriptions :
    (socket.readPage events other cursor rest).subscriptions = socket.subscriptions := by
  obtain ⟨_, same⟩ := readPage_eq socket events other cursor rest
  rw [same]
  exact (foldl_replay_sameRest _).subscriptions

theorem readPage_next : (socket.readPage events other cursor rest).next = socket.next := by
  obtain ⟨_, same⟩ := readPage_eq socket events other cursor rest
  rw [same]
  exact (foldl_replay_sameRest _).next

theorem mem_sent_readPage (mem : sent ∈ (socket.readPage events other cursor rest).sent) :
    sent ∈ socket.sent ∨ sent ∈ events := by
  obtain ⟨_, same⟩ := readPage_eq socket events other cursor rest
  rw [same] at mem
  exact (mem_sent_foldl_replay _ mem).imp_right fun read => (Store.mem_eventsAfterPage read).1

theorem readPage_receiver (positive : ∀ event ∈ events, 0 < event.eventId) :
    (socket.readPage events other cursor rest).receiver sessionId =
      if other = sessionId then
        (socket.receiver sessionId).offerAll (·.eventId)
          (eventsAfterPage events other cursor none).events
      else socket.receiver sessionId := by
  obtain ⟨_, same⟩ := readPage_eq socket events other cursor rest
  rw [same]
  exact foldl_replay_receiver _ fun event mem =>
    have read := Store.mem_eventsAfterPage mem
    ⟨read.2.1, positive event read.1⟩

theorem toCatch_readPage (caught : sessionId ∈ (socket.readPage events other cursor rest).toCatch) :
    sessionId = other ∨ sessionId ∈ rest := by
  cases hNext : (eventsAfterPage events other cursor none).nextAfterEventId with
  | some =>
    rw [readPage_of_some hNext] at caught
    exact mem_cons.mp caught
  | none =>
    rw [readPage_of_none hNext, catchUp_toCatch] at caught
    exact .inr caught

theorem mem_toCatch_readPage (later : sessionId ∈ rest) :
    sessionId ∈ (socket.readPage events other cursor rest).toCatch := by
  cases hNext : (eventsAfterPage events other cursor none).nextAfterEventId with
  | some =>
    rw [readPage_of_some hNext]
    exact .tail _ later
  | none =>
    rw [readPage_of_none hNext, catchUp_toCatch]
    exact later

theorem mem_insertSubscription :
    sessionId ∈ (socket.insertSubscription other).subscriptions ↔
      sessionId = other ∨ sessionId ∈ socket.subscriptions := by
  rw [insertSubscription]
  split
  · rename_i mem
    constructor
    · exact .inr
    · rintro (rfl | old)
      · exact mem
      · exact old
  · exact mem_orderedInsert _

theorem insertSubscription_sameRest (socket : Socket) (other : String) :
    (socket.insertSubscription other).next = socket.next ∧
      (socket.insertSubscription other).point = socket.point ∧
      (socket.insertSubscription other).eventHighWater = socket.eventHighWater ∧
      (socket.insertSubscription other).sent = socket.sent := by
  rw [insertSubscription]
  split <;> exact ⟨rfl, rfl, rfl, rfl⟩

variable {afterEventId : Option Int}

theorem mem_eventsSubscribe_subscriptions :
    sessionId ∈ (socket.eventsSubscribe events other afterEventId).subscriptions ↔
      sessionId = other ∨ sessionId ∈ socket.subscriptions := by
  rw [← mem_insertSubscription]
  cases afterEventId <;> rfl

theorem eventsSubscribe_next :
    (socket.eventsSubscribe events other afterEventId).next = socket.next := by
  have same := (insertSubscription_sameRest socket other).1
  cases afterEventId <;> exact same

theorem eventsSubscribe_point :
    (socket.eventsSubscribe events other afterEventId).point = socket.point := by
  have same := (insertSubscription_sameRest socket other).2.1
  cases afterEventId <;> exact same

theorem mem_sent_eventsSubscribe
    (mem : sent ∈ (socket.eventsSubscribe events other afterEventId).sent) :
    sent ∈ socket.sent ∨ sent ∈ events := by
  rw [← (insertSubscription_sameRest socket other).2.2.2]
  cases afterEventId with
  | none => exact .inl mem
  | some =>
    rcases mem_append.mp mem with old | read
    · exact .inl old
    · exact .inr (Store.mem_eventsAfterPage read).1

theorem eventsSubscribe_receiver_of_ne (apart : sessionId ≠ other) :
    (socket.eventsSubscribe events other afterEventId).receiver sessionId =
      socket.receiver sessionId := by
  obtain ⟨-, -, marks, sent⟩ := insertSubscription_sameRest socket other
  cases afterEventId with
  | none =>
    simp [eventsSubscribe, receiver, insertHighWater, highWater, marks, sent,
      Function.update_of_ne apart]
  | some after =>
    have foreign : (eventsAfterPage events other (some after) none).events.filter
        (fun event => event.sessionId = sessionId && 0 < event.eventId) = [] := by
      rw [filter_eq_nil_iff]
      intro event read
      have other := (Store.mem_eventsAfterPage read).2.1
      simp [other, apart.symm]
    simp only [eventsSubscribe, receiver, insertHighWater, send, highWater, marks, sent,
      Function.update_of_ne apart, filter_append, foreign, append_nil]

theorem eventsUnsubscribe_receiver (apart : sessionId ≠ other) :
    (socket.eventsUnsubscribe other).receiver sessionId = socket.receiver sessionId := by
  simp [receiver, eventsUnsubscribe, highWater, Function.update_of_ne apart]

theorem eventsSubscribe_receiver (after : Int) (fresh : socket.receiver sessionId = ⟨0, []⟩)
    (positive : ∀ event ∈ events, 0 < event.eventId) :
    let page := eventsAfterPage events sessionId (some after) none
    let receiver := (socket.eventsSubscribe events sessionId (some after)).receiver sessionId
    receiver.taken = page.events ∧ after ≤ receiver.mark ∧
      ∀ event ∈ page.events, event.eventId ≤ receiver.mark := by
  intro page receiver
  obtain ⟨-, -, marks, sent⟩ := insertSubscription_sameRest socket sessionId
  have whole : page.events.filter
      (fun event => event.sessionId = sessionId && 0 < event.eventId) = page.events := by
    rw [filter_eq_self]
    intro event read
    have row := Store.mem_eventsAfterPage read
    simp [row.2.1, positive event row.1]
  obtain ⟨unmarked, untaken⟩ := Receiver.mk.inj fresh
  rw [highWater] at unmarked
  have mark : receiver.mark =
      max (max 0 after) (((page.events.map (·.eventId)).max?).getD after) := by
    simp [receiver, Socket.receiver, eventsSubscribe, insertHighWater, send, highWater, marks,
      unmarked, page]
  refine ⟨?_, ?_, fun event read => ?_⟩
  · simp only [receiver, Socket.receiver, eventsSubscribe, insertHighWater, send, sent,
      filter_append, untaken, nil_append]
    exact whole
  · rw [mark]
    omega
  · rw [mark]
    refine le_trans ?_ (le_max_right _ _)
    have listed : event.eventId ∈ page.events.map (·.eventId) := mem_map_of_mem read
    cases hMax : (page.events.map (·.eventId)).max? with
    | none =>
      rw [max?_eq_none_iff.mp hMax] at listed
      cases listed
    | some => exact (max?_eq_some_iff.mp hMax).2 _ listed

end Socket

end PiRelay.Runtime
