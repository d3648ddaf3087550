import Mathlib.Data.List.Flatten
import Mathlib.Data.List.Perm.Subperm
import PiRelay.AgentDaemon.EventSockets

/-! Which events of a session a subscriber is sent. What it is sent is always in order; the
high-water mark loses exactly the events it has passed, of a transaction that commits behind
it or of a frame that another one has overtaken between commit and broadcast. -/
namespace PiRelay.Runtime

open Socket List Option

open Library (Machine Receiver)
open Store (EventFrame eventsAfterPage)

/-- A step of the socket. -/
inductive SocketMove (feed : Feed) : FeedLabel → Socket → Prop where
  | connect (closed : feed.socket.point = .closed) :
      SocketMove feed .connect { feed.socket with point := .waiting, next := feed.channel.length }
  | subscribe (sessionId : String) (afterEventId : Option Int)
      (waiting : feed.socket.point = .waiting) :
      SocketMove feed (.subscribe sessionId afterEventId)
        (feed.socket.eventsSubscribe feed.events sessionId afterEventId)
  | unsubscribe (sessionId : String) (waiting : feed.socket.point = .waiting) :
      SocketMove feed (.unsubscribe sessionId) (feed.socket.eventsUnsubscribe sessionId)
  | lags (waiting : feed.socket.point = .waiting)
      (lapped : eventChannelCapacity < feed.channel.length - feed.socket.next) :
      SocketMove feed .receive
        ({ feed.socket with next := feed.channel.length - eventChannelCapacity }.catchUp
          feed.socket.subscriptions)
  | frame (event : EventFrame) (waiting : feed.socket.point = .waiting)
      (kept : feed.channel.length - feed.socket.next ≤ eventChannelCapacity)
      (found : feed.channel[feed.socket.next]? = some event) :
      SocketMove feed .receive ({ feed.socket with next := feed.socket.next + 1 }.forward event)
  | page (sessionId : String) (cursor : Option Int) (rest : List String)
      (catching : feed.socket.point = .catching sessionId cursor rest) :
      SocketMove feed .readPage (feed.socket.readPage feed.events sessionId cursor rest)

/-- A step of a writer. -/
inductive WriterMove (feed : Feed) : FeedLabel → Feed → Prop where
  | begin : WriterMove feed .begin { feed with transactions := feed.transactions ++ [{}] }
  | lockSession (writer : Nat) (sessionId : String) (transaction : EventTransaction)
      (found : feed.transactions[writer]? = some transaction) :
      WriterMove feed (.lockSession writer sessionId) { feed with
        transactions := feed.transactions.set writer
          { transaction with locks := sessionId :: transaction.locks } }
  | insertEvent (writer : Nat) (frame : EventFrame) (transaction : EventTransaction)
      (found : feed.transactions[writer]? = some transaction)
      (allocated : frame.eventId = feed.nextEventId) :
      WriterMove feed (.insertEvent writer frame.sessionId frame.event frame.data) { feed with
        nextEventId := feed.nextEventId + 1
        transactions := feed.transactions.set writer
          { transaction with frames := transaction.frames ++ [frame] } }
  | commit (writer : Nat) (transaction : EventTransaction)
      (found : feed.transactions[writer]? = some transaction) :
      WriterMove feed (.commit writer) { feed with
        events := feed.events ++ transaction.frames
        transactions := feed.transactions.eraseIdx writer
        publishers := feed.publishers ++ [transaction.frames] }
  | rollback (writer : Nat) :
      WriterMove feed (.rollback writer) { feed with
        transactions := feed.transactions.eraseIdx writer }
  | publishEvent (publisher : Nat) (frame : EventFrame) (rest : List EventFrame)
      (found : feed.publishers[publisher]? = some (frame :: rest)) :
      WriterMove feed (.publishEvent publisher) { feed with
        publishers := feed.publishers.set publisher rest
        channel := feed.channel ++ [frame] }
  | publishEphemeral (frame : EventFrame) (ephemeral : frame.eventId = 0) :
      WriterMove feed (.publishEphemeral frame.sessionId frame.event frame.data) { feed with
        channel := feed.channel ++ [frame] }
  | clearSessionEvents (sessionId : String) :
      WriterMove feed (.clearSessionEvents sessionId) { feed with
        events := Store.clearSessionEvents feed.events sessionId }

namespace Feed

variable {feed after : Feed} {label : FeedLabel} {sessionId : String} {afterEventId : Int}

theorem whenWaiting_eq_some {act : Socket → Option Socket}
    (stepped : feed.whenWaiting act = some after) :
    feed.socket.point = .waiting ∧
      ∃ socket, act feed.socket = some socket ∧ after = { feed with socket } := by
  rw [whenWaiting] at stepped
  split at stepped
  · rename_i waiting
    obtain ⟨socket, acted, rfl⟩ := map_eq_some_iff.mp stepped
    exact ⟨waiting, socket, acted, rfl⟩
  · cases stepped

theorem step_cases (stepped : feed.step label = some after) :
    WriterMove feed label after ∨
      ∃ socket, SocketMove feed label socket ∧ after = { feed with socket } := by
  cases label with
  | begin =>
    cases stepped
    exact .inl .begin
  | lockSession writer sessionId =>
    rw [step, lockSession] at stepped
    split at stepped
    · cases stepped
    · rename_i transaction found
      split at stepped
      · cases stepped
      · cases stepped
        exact .inl (.lockSession writer sessionId transaction found)
  | insertEvent writer sessionId event data =>
    obtain ⟨transaction, found, rfl⟩ := map_eq_some_iff.mp stepped
    exact .inl (.insertEvent writer ⟨feed.nextEventId, event, sessionId, data⟩ transaction found
      rfl)
  | commit writer =>
    obtain ⟨transaction, found, rfl⟩ := map_eq_some_iff.mp stepped
    exact .inl (.commit writer transaction found)
  | rollback writer =>
    cases stepped
    exact .inl (.rollback writer)
  | publishEvent publisher =>
    rw [step, publishEvent] at stepped
    split at stepped
    · rename_i frame rest found
      cases stepped
      exact .inl (.publishEvent publisher frame rest found)
    · cases stepped
  | publishEphemeral sessionId event data =>
    cases stepped
    exact .inl (.publishEphemeral ⟨0, event, sessionId, data⟩ rfl)
  | clearSessionEvents sessionId =>
    cases stepped
    exact .inl (.clearSessionEvents sessionId)
  | connect =>
    rw [step] at stepped
    split at stepped
    · rename_i closed
      cases stepped
      exact .inr ⟨_, .connect closed, rfl⟩
    · cases stepped
  | subscribe sessionId afterEventId =>
    rw [step] at stepped
    obtain ⟨waiting, socket, acted, rfl⟩ := whenWaiting_eq_some stepped
    cases acted
    exact .inr ⟨_, .subscribe sessionId afterEventId waiting, rfl⟩
  | unsubscribe sessionId =>
    rw [step] at stepped
    obtain ⟨waiting, socket, acted, rfl⟩ := whenWaiting_eq_some stepped
    cases acted
    exact .inr ⟨_, .unsubscribe sessionId waiting, rfl⟩
  | receive =>
    rw [step] at stepped
    obtain ⟨waiting, socket, received, rfl⟩ := whenWaiting_eq_some stepped
    rw [Socket.receive] at received
    split at received
    · rename_i lapped
      cases received
      exact .inr ⟨_, .lags waiting lapped, rfl⟩
    · rename_i kept
      obtain ⟨event, found, rfl⟩ := map_eq_some_iff.mp received
      exact .inr ⟨_, .frame event waiting (not_lt.mp kept) found, rfl⟩
  | readPage =>
    rw [step] at stepped
    split at stepped
    · rename_i sessionId cursor rest catching
      cases stepped
      exact .inr ⟨_, .page sessionId cursor rest catching, rfl⟩
    · cases stepped

def inserted (feed : Feed) : List EventFrame := feed.transactions.flatMap (·.frames)

/-- The frames of committed transactions wherever they are, and ephemeral ones. -/
def Brought (feed : Feed) (event : EventFrame) : Prop :=
  event ∈ feed.events ∨ event ∈ feed.publishers.flatten ∨ event ∈ feed.channel ∨
    event ∈ feed.socket.sent

/-- Every event has an id of its own. -/
structure Allocated (feed : Feed) : Prop where
  next : 0 < feed.nextEventId
  inserted : ∀ event ∈ feed.inserted, 0 < event.eventId ∧ event.eventId < feed.nextEventId
  distinct : (feed.inserted.map (·.eventId)).Nodup
  brought : ∀ event, feed.Brought event → 0 ≤ event.eventId ∧ event.eventId < feed.nextEventId
  unique : ∀ event other, feed.Brought event → feed.Brought other → 0 < event.eventId →
    event.eventId = other.eventId → event = other
  apart : ∀ event ∈ feed.inserted, ∀ other, feed.Brought other → other.eventId ≠ event.eventId
  rows : (feed.events.map (·.eventId)).Nodup
  stored : ∀ event ∈ feed.events, 0 < event.eventId

variable {transaction : EventTransaction} {frame event : EventFrame} {socket : Socket}
    {cursor : Option Int} {rest : List String}

theorem inserted_perm {writer : Nat} (found : feed.transactions[writer]? = some transaction) :
    feed.inserted.Perm
      (transaction.frames ++ (feed.transactions.eraseIdx writer).flatMap (·.frames)) := by
  obtain ⟨bound, rfl⟩ := List.getElem?_eq_some_iff.mp found
  have moved := (getElem_cons_eraseIdx_perm bound).symm.flatMap_right (·.frames)
  rwa [flatMap_cons] at moved

theorem flatMap_set_perm {writer : Nat} (found : feed.transactions[writer]? = some transaction)
    (changed : EventTransaction) :
    ((feed.transactions.set writer changed).flatMap (·.frames)).Perm
      (changed.frames ++ (feed.transactions.eraseIdx writer).flatMap (·.frames)) := by
  obtain ⟨bound, -⟩ := List.getElem?_eq_some_iff.mp found
  have moved := (set_perm_cons_eraseIdx bound changed).flatMap_right (·.frames)
  rwa [flatMap_cons] at moved

section

variable (allocated : feed.Allocated)
include allocated

theorem Allocated.mono (next : after.nextEventId = feed.nextEventId)
    (inserted : after.inserted.Subperm feed.inserted)
    (brought : ∀ event, after.Brought event → feed.Brought event ∨ event.eventId = 0)
    (events : after.events.Sublist feed.events) : after.Allocated where
  next := next ▸ allocated.next
  inserted event mem := next ▸ allocated.inserted event (inserted.subset mem)
  distinct := by
    obtain ⟨_, perm, sublist⟩ := inserted
    exact (perm.map _).nodup_iff.mp (allocated.distinct.sublist (sublist.map _))
  brought event isBrought := by
    rcases brought event isBrought with old | zero
    · exact next ▸ allocated.brought event old
    · rw [zero, next]
      exact ⟨le_rfl, allocated.next⟩
  unique event other isBrought otherBrought positive same := by
    rcases brought event isBrought with old | zero
    · rcases brought other otherBrought with otherOld | otherZero
      · exact allocated.unique event other old otherOld positive same
      · omega
    · omega
  apart event mem other otherBrought := by
    have isInserted := inserted.subset mem
    rcases brought other otherBrought with old | zero
    · exact allocated.apart event isInserted other old
    · have := (allocated.inserted event isInserted).1
      omega
  rows := allocated.rows.sublist (events.map _)
  stored event mem := allocated.stored event (events.subset mem)

theorem Allocated.insertEvent {writer : Nat} (found : feed.transactions[writer]? = some transaction)
    (fresh : frame.eventId = feed.nextEventId) :
    Allocated { feed with
      nextEventId := feed.nextEventId + 1
      transactions := feed.transactions.set writer
        { transaction with frames := transaction.frames ++ [frame] } } := by
  set after : Feed := { feed with
    nextEventId := feed.nextEventId + 1
    transactions := feed.transactions.set writer
      { transaction with frames := transaction.frames ++ [frame] } }
  have positive := allocated.next
  have perm : after.inserted.Perm (frame :: feed.inserted) := by
    have grown := flatMap_set_perm found { transaction with
      frames := transaction.frames ++ [frame] }
    rw [append_assoc] at grown
    exact (grown.trans perm_middle).trans ((inserted_perm found).symm.cons frame)
  have earlier : ∀ event, feed.Brought event → event.eventId < feed.nextEventId :=
    fun event brought => (allocated.brought event brought).2
  refine ⟨by show 0 < feed.nextEventId + 1; omega, fun event mem => ?_, ?_,
    fun event brought => ?_, allocated.unique, fun event mem other brought => ?_,
    allocated.rows, allocated.stored⟩
  · show 0 < event.eventId ∧ event.eventId < feed.nextEventId + 1
    rcases mem_cons.mp (perm.subset mem) with rfl | old
    · omega
    · have := allocated.inserted event old
      omega
  · rw [(perm.map _).nodup_iff, map_cons, nodup_cons]
    constructor
    · intro listed
      obtain ⟨event, old, _⟩ := mem_map.mp listed
      have := (allocated.inserted event old).2
      omega
    · exact allocated.distinct
  · show 0 ≤ event.eventId ∧ event.eventId < feed.nextEventId + 1
    have := allocated.brought event brought
    omega
  · rcases mem_cons.mp (perm.subset mem) with rfl | old
    · have := earlier other brought
      omega
    · exact allocated.apart event old other brought

/-- A commit leaves every event an id of its own. -/
theorem Allocated.commit {writer : Nat} (found : feed.transactions[writer]? = some transaction) :
    Allocated { feed with
      events := feed.events ++ transaction.frames
      transactions := feed.transactions.eraseIdx writer
      publishers := feed.publishers ++ [transaction.frames] } := by
  set after : Feed := { feed with
    events := feed.events ++ transaction.frames
    transactions := feed.transactions.eraseIdx writer
    publishers := feed.publishers ++ [transaction.frames] }
  have perm := inserted_perm found
  have distinct := (perm.map (·.eventId)).nodup_iff.mp allocated.distinct
  rw [map_append, nodup_append] at distinct
  have isInserted : ∀ event ∈ transaction.frames, event ∈ feed.inserted := fun event mem =>
    perm.symm.subset (mem_append_left _ mem)
  have brought : ∀ event, after.Brought event →
      feed.Brought event ∨ event ∈ transaction.frames := by
    intro event
    simp only [Brought, after, mem_append, flatten_append, flatten_cons, flatten_nil, append_nil]
    tauto
  refine ⟨allocated.next, fun event mem => ?_, distinct.2.1, fun event isBrought => ?_,
    fun event other isBrought otherBrought positive same => ?_,
    fun event mem other otherBrought => ?_, ?_, fun event mem => ?_⟩
  · exact allocated.inserted event (perm.symm.subset (mem_append_right _ mem))
  · rcases brought event isBrought with old | new
    · exact allocated.brought event old
    · have := allocated.inserted event (isInserted event new)
      exact ⟨this.1.le, this.2⟩
  · rcases brought event isBrought with old | new <;>
      rcases brought other otherBrought with otherOld | otherNew
    · exact allocated.unique event other old otherOld positive same
    · exact absurd same (allocated.apart other (isInserted other otherNew) event old)
    · exact absurd same.symm (allocated.apart event (isInserted event new) other otherOld)
    · exact inj_on_of_nodup_map distinct.1 new otherNew same
  · rcases brought other otherBrought with old | new
    · exact allocated.apart event (perm.symm.subset (mem_append_right _ mem)) other old
    · exact distinct.2.2 _ (mem_map_of_mem new) _ (mem_map_of_mem mem)
  · show ((feed.events ++ transaction.frames).map (·.eventId)).Nodup
    rw [map_append, nodup_append]
    refine ⟨allocated.rows, distinct.1, fun one stored two committed same => ?_⟩
    obtain ⟨row, isRow, rfl⟩ := mem_map.mp stored
    obtain ⟨frame, isFrame, rfl⟩ := mem_map.mp committed
    exact allocated.apart frame (isInserted frame isFrame) row (.inl isRow) same
  · rcases mem_append.mp mem with old | new
    · exact allocated.stored event old
    · exact (allocated.inserted event (isInserted event new)).1

end

theorem mem_flatten_set {publisher : Nat} {rest : List EventFrame}
    (found : feed.publishers[publisher]? = some (frame :: rest)) (event : EventFrame) :
    event ∈ feed.publishers.flatten ↔
      event = frame ∨ event ∈ (feed.publishers.set publisher rest).flatten := by
  obtain ⟨bound, same⟩ := List.getElem?_eq_some_iff.mp found
  have whole := (getElem_cons_eraseIdx_perm bound).symm.flatten
  have cut := (set_perm_cons_eraseIdx bound rest).flatten
  rw [whole.mem_iff, cut.mem_iff, same]
  simp

theorem Allocated.writer (allocated : feed.Allocated) (move : WriterMove feed label after) :
    after.Allocated := by
  cases move with
  | begin =>
    refine allocated.mono rfl ?_ (fun _ => .inl) (List.Sublist.refl _)
    have same : (feed.transactions ++ [({} : EventTransaction)]).flatMap (·.frames) =
        feed.inserted := by
      rw [flatMap_append, flatMap_singleton, append_nil]
      rfl
    exact (List.Perm.of_eq same).subperm
  | lockSession _ sessionId transaction found =>
    refine allocated.mono rfl ?_ (fun _ => .inl) (List.Sublist.refl _)
    have same := flatMap_set_perm found { transaction with locks := sessionId :: transaction.locks }
    exact (same.trans (inserted_perm found).symm).subperm
  | insertEvent _ _ _ found fresh => exact allocated.insertEvent found fresh
  | commit _ _ found => exact allocated.commit found
  | rollback writer =>
    refine allocated.mono rfl ?_ (fun _ => .inl) (List.Sublist.refl _)
    exact ((eraseIdx_sublist feed.transactions writer).flatMap (·.frames)).subperm
  | publishEvent _ _ _ found =>
    refine allocated.mono rfl (List.Subperm.refl _) (fun event brought => .inl ?_)
      (List.Sublist.refl _)
    rw [Brought, mem_append, mem_singleton] at brought
    rw [Brought, mem_flatten_set found]
    tauto
  | publishEphemeral frame ephemeral =>
    refine allocated.mono rfl (List.Subperm.refl _) (fun event brought => ?_) (List.Sublist.refl _)
    rw [Brought, mem_append, mem_singleton] at brought
    by_cases same : event = frame
    · exact .inr (same ▸ ephemeral)
    · rw [Brought]
      tauto
  | clearSessionEvents sessionId =>
    have kept : (Store.clearSessionEvents feed.events sessionId).Sublist feed.events :=
      filter_sublist
    refine allocated.mono rfl (List.Subperm.refl _) (fun event brought => .inl ?_) kept
    rcases brought with row | other
    · exact .inl (kept.subset row)
    · exact .inr other

theorem mem_sent_of_move (move : SocketMove feed label socket) (mem : event ∈ socket.sent) :
    event ∈ feed.socket.sent ∨ event ∈ feed.events ∨ event ∈ feed.channel := by
  cases move with
  | connect | unsubscribe => exact .inl mem
  | subscribe => exact (mem_sent_eventsSubscribe mem).imp_right .inl
  | lags =>
    rw [catchUp_sent] at mem
    exact .inl mem
  | frame _ _ _ found =>
    rcases mem_sent_forward mem with old | rfl
    · exact .inl old
    · exact .inr (.inr (mem_of_getElem? found))
  | page => exact (mem_sent_readPage mem).imp_right .inl

theorem Allocated.step (allocated : feed.Allocated) (stepped : feed.step label = some after) :
    after.Allocated := by
  rcases step_cases stepped with move | ⟨socket, move, rfl⟩
  · exact allocated.writer move
  · refine allocated.mono rfl (List.Subperm.refl _) (fun event brought => .inl ?_)
      (List.Sublist.refl _)
    rcases brought with row | unpublished | broadcast | sent
    · exact .inl row
    · exact .inr (.inl unpublished)
    · exact .inr (.inr (.inl broadcast))
    · rcases mem_sent_of_move move sent with old | row | broadcast
      · exact .inr (.inr (.inr old))
      · exact .inl row
      · exact .inr (.inr (.inl broadcast))

/-- The session has up to a page of newer events. -/
def OnePage (feed : Feed) (sessionId : String) (afterEventId : Int) : Prop :=
  ((feed.events.filter fun event =>
    event.sessionId = sessionId && afterEventId < event.eventId).length : Int) ≤
      Store.defaultEventReplayPageLimit

def Subscribes (sessionId : String) (afterEventId : Int) (feed : Feed) : FeedLabel → Prop
  | .subscribe other after => other = sessionId →
      sessionId ∉ feed.socket.subscriptions ∧ after = some afterEventId ∧
        feed.OnePage sessionId afterEventId
  | .unsubscribe other => other ≠ sessionId
  | _ => True

/-- What holds of the socket whatever the order of commits and broadcasts. -/
structure Sound (sessionId : String) (afterEventId : Int) (feed : Feed) : Prop where
  allocated : feed.Allocated
  position : feed.socket.next ≤ feed.channel.length
  closed : feed.socket.point = .closed → sessionId ∉ feed.socket.subscriptions
  unsubscribed : sessionId ∉ feed.socket.subscriptions →
    feed.socket.receiver sessionId = ⟨0, []⟩ ∧ sessionId ∉ feed.socket.toCatch
  cursor : ∀ cursor rest, feed.socket.point = .catching sessionId cursor rest →
    cursor.getD 0 = feed.socket.highWater sessionId
  ordered : (feed.socket.receiver sessionId).Ordered (·.eventId)
  above : sessionId ∈ feed.socket.subscriptions →
    afterEventId ≤ feed.socket.highWater sessionId

section

variable (allocated : feed.Allocated)
include allocated

theorem Allocated.positive (brought : feed.Brought event) (persisted : event.eventId ≠ 0) :
    0 < event.eventId := by
  have := (allocated.brought event brought).1
  omega

theorem offered_of_move (move : SocketMove feed label socket)
    (once : feed.Subscribes sessionId afterEventId label)
    (subscribed : sessionId ∈ feed.socket.subscriptions) :
    sessionId ∈ socket.subscriptions ∧
      ∃ events, socket.receiver sessionId =
        (feed.socket.receiver sessionId).offerAll (·.eventId) events := by
  cases move with
  | connect => exact ⟨subscribed, [], rfl⟩
  | subscribe other =>
    have apart : sessionId ≠ other := fun same => (once same.symm).1 subscribed
    exact ⟨mem_eventsSubscribe_subscriptions.mpr (.inr subscribed), [],
      eventsSubscribe_receiver_of_ne apart⟩
  | unsubscribe other =>
    have apart : other ≠ sessionId := once
    refine ⟨mem_filter.mpr ⟨subscribed, by simpa using apart.symm⟩, [], ?_⟩
    exact eventsUnsubscribe_receiver apart.symm
  | lags =>
    rw [catchUp_subscriptions, catchUp_receiver, receiver_next]
    exact ⟨subscribed, [], rfl⟩
  | frame event _ _ found =>
    constructor
    · rw [(forward_sameRest _ event).subscriptions]
      exact subscribed
    · by_cases persisted : event.eventId = 0
      · exact ⟨[], forward_receiver_ephemeral persisted.le⟩
      · have brought : feed.Brought event := .inr (.inr (.inl (mem_of_getElem? found)))
        rw [forward_receiver (allocated.positive brought persisted)]
        split
        · exact ⟨[event], rfl⟩
        · exact ⟨[], rfl⟩
  | page other cursor =>
    rw [readPage_subscriptions, readPage_receiver allocated.stored]
    split
    · exact ⟨subscribed, (eventsAfterPage feed.events other cursor none).events, rfl⟩
    · exact ⟨subscribed, [], rfl⟩

theorem untouched_of_move (move : SocketMove feed label socket)
    (once : feed.Subscribes sessionId afterEventId label)
    (before : ∀ after, label ≠ .subscribe sessionId after)
    (fresh : sessionId ∉ feed.socket.subscriptions) (uncaught : sessionId ∉ feed.socket.toCatch) :
    sessionId ∉ socket.subscriptions ∧ socket.receiver sessionId = feed.socket.receiver sessionId ∧
      sessionId ∉ socket.toCatch := by
  cases move with
  | connect => exact ⟨fresh, rfl, nofun⟩
  | subscribe other after waiting =>
    have apart : sessionId ≠ other := by
      rintro rfl
      exact before after rfl
    refine ⟨?_, eventsSubscribe_receiver_of_ne apart, ?_⟩
    · rw [mem_eventsSubscribe_subscriptions]
      rintro (same | old)
      · exact apart same
      · exact fresh old
    · rw [toCatch, eventsSubscribe_point, waiting]
      nofun
  | unsubscribe other =>
    have apart : other ≠ sessionId := once
    exact ⟨fun kept => fresh (mem_filter.mp kept).1,
      eventsUnsubscribe_receiver apart.symm, uncaught⟩
  | lags =>
    rw [catchUp_subscriptions, catchUp_receiver, receiver_next, catchUp_toCatch]
    exact ⟨fresh, rfl, fresh⟩
  | frame event _ _ found =>
    have rest := forward_sameRest { feed.socket with next := feed.socket.next + 1 } event
    refine ⟨?_, ?_, ?_⟩
    · rw [rest.subscriptions]
      exact fresh
    · by_cases persisted : event.eventId = 0
      · exact forward_receiver_ephemeral persisted.le
      · have brought : feed.Brought event := .inr (.inr (.inl (mem_of_getElem? found)))
        rw [forward_receiver (allocated.positive brought persisted), if_neg]
        · rfl
        · exact fun taken => fresh taken.2
    · rw [toCatch, rest.point]
      exact uncaught
  | page _ _ _ catching =>
    rw [toCatch, catching, mem_cons, not_or] at uncaught
    rw [readPage_subscriptions, readPage_receiver allocated.stored, if_neg (Ne.symm uncaught.1)]
    exact ⟨fresh, rfl, fun caught => (toCatch_readPage caught).elim uncaught.1 uncaught.2⟩

end

theorem Sound.writer (sound : feed.Sound sessionId afterEventId)
    (move : WriterMove feed label after) : after.Sound sessionId afterEventId := by
  have allocated := sound.allocated.writer move
  have position : after.socket.next ≤ after.channel.length := by
    have := sound.position
    cases move with
    | publishEvent | publishEphemeral =>
      rw [length_append]
      exact Nat.le_add_right_of_le this
    | _ => exact this
  have same : after.socket = feed.socket := by
    cases move <;> rfl
  constructor
  · exact allocated
  · exact position
  · rw [same]
    exact sound.closed
  · rw [same]
    exact sound.unsubscribed
  · rw [same]
    exact sound.cursor
  · rw [same]
    exact sound.ordered
  · rw [same]
    exact sound.above

theorem point_of_move (move : SocketMove feed label socket) : socket.point ≠ .closed := by
  cases move with
  | connect => simp
  | subscribe _ _ waiting =>
    simp [eventsSubscribe_point, waiting]
  | unsubscribe _ waiting =>
    simp [eventsUnsubscribe, waiting]
  | lags => exact catchUp_point _
  | frame event waiting =>
    simp [(forward_sameRest _ event).point, waiting]
  | page other cursor =>
    cases hNext : (eventsAfterPage feed.events other cursor none).nextAfterEventId with
    | some =>
      simp [readPage_of_some hNext]
    | none =>
      rw [readPage_of_none hNext]
      exact catchUp_point _

section

variable (sound : feed.Sound sessionId afterEventId)
include sound

theorem Sound.highWater_readPage {next : Int}
    (current : cursor.getD 0 = feed.socket.highWater sessionId)
    (more : (eventsAfterPage feed.events sessionId cursor none).nextAfterEventId = some next) :
    next = (feed.socket.readPage feed.events sessionId cursor rest).highWater sessionId := by
  set page := eventsAfterPage feed.events sessionId cursor none with hPage
  set receiver := feed.socket.receiver sessionId
  obtain ⟨⟨last, mem, isLast⟩, atMost⟩ := Store.eventsAfterPage_last sound.allocated.rows more
  have newer : receiver.mark < next := by
    have := (Store.mem_eventsAfterPage mem).2.2
    show feed.socket.highWater sessionId < next
    omega
  have read : (feed.socket.readPage feed.events sessionId cursor rest).receiver sessionId =
      receiver.offerAll (·.eventId) page.events := by
    rw [readPage_receiver sound.allocated.stored, if_pos rfl]
  show next = ((feed.socket.readPage feed.events sessionId cursor rest).receiver sessionId).mark
  rw [read]
  have passed : last.eventId ≤ (receiver.offerAll (·.eventId) page.events).mark :=
    Receiver.key_le_offerAll mem
  rcases Receiver.offerAll_mark (·.eventId) receiver page.events with same | ⟨event, isRead, same⟩
  · omega
  · have := atMost event isRead
    omega

theorem Sound.cursor_of_move (move : SocketMove feed label socket)
    (catching : socket.point = .catching sessionId cursor rest) :
    cursor.getD 0 = socket.highWater sessionId := by
  cases move with
  | connect => cases catching
  | subscribe _ _ waiting =>
    rw [eventsSubscribe_point, waiting] at catching
    cases catching
  | unsubscribe _ waiting =>
    rw [eventsUnsubscribe, waiting] at catching
    cases catching
  | lags => exact catchUp_cursor catching
  | frame event waiting =>
    rw [(forward_sameRest _ event).point, waiting] at catching
    cases catching
  | page other before _ wasCatching =>
    cases hNext : (eventsAfterPage feed.events other before none).nextAfterEventId with
    | none =>
      rw [readPage_of_none hNext] at catching ⊢
      exact catchUp_cursor catching
    | some =>
      rw [readPage_of_some hNext] at catching
      cases catching
      exact sound.highWater_readPage (sound.cursor _ _ wasCatching) hNext

/-- A move of the socket keeps what it has taken in order. -/
theorem Sound.move (move : SocketMove feed label socket)
    (once : feed.Subscribes sessionId afterEventId label)
    (allocated : ({ feed with socket } : Feed).Allocated) :
    ({ feed with socket } : Feed).Sound sessionId afterEventId := by
  have position : socket.next ≤ feed.channel.length := by
    have before := sound.position
    cases move with
    | connect => exact le_rfl
    | subscribe => rwa [eventsSubscribe_next]
    | unsubscribe => exact before
    | lags =>
      rw [catchUp_next]
      exact Nat.sub_le _ _
    | frame event _ _ found =>
      rw [(forward_sameRest _ event).next]
      exact (List.getElem?_eq_some_iff.mp found).1
    | page => rwa [readPage_next]
  have closed : socket.point = .closed → sessionId ∉ socket.subscriptions := fun same =>
    absurd same (point_of_move move)
  have cursor : ∀ cursor rest, socket.point = .catching sessionId cursor rest →
      cursor.getD 0 = socket.highWater sessionId := fun _ _ => sound.cursor_of_move move
  by_cases subscribed : sessionId ∈ feed.socket.subscriptions
  · obtain ⟨still, events, offered⟩ := offered_of_move sound.allocated move once subscribed
    refine ⟨allocated, position, closed, fun fresh => absurd still fresh, cursor, ?_, fun _ => ?_⟩
    · show (socket.receiver sessionId).Ordered (·.eventId)
      rw [offered]
      exact sound.ordered.offerAll events
    · show afterEventId ≤ (socket.receiver sessionId).mark
      rw [offered]
      have risen : (feed.socket.receiver sessionId).mark ≤
          ((feed.socket.receiver sessionId).offerAll (·.eventId) events).mark :=
        Receiver.le_offerAll events
      exact (sound.above subscribed).trans risen
  · obtain ⟨fresh, uncaught⟩ := sound.unsubscribed subscribed
    by_cases subscribes : ∃ after, label = .subscribe sessionId after
    · obtain ⟨after, rfl⟩ := subscribes
      obtain ⟨-, rfl, -⟩ := once rfl
      cases move with
      | subscribe =>
        obtain ⟨taken, above, below⟩ :=
          eventsSubscribe_receiver afterEventId fresh sound.allocated.stored
        refine ⟨allocated, position, closed, fun unsubscribed => ?_, cursor, ⟨?_, ?_⟩,
          fun _ => above⟩
        · exact absurd (mem_eventsSubscribe_subscriptions.mpr (.inl rfl)) unsubscribed
        · show List.Pairwise _ (Receiver.taken _)
          rw [taken]
          exact Store.eventsAfterPage_increasing sound.allocated.rows _ _ _
        · intro event mem
          rw [taken] at mem
          exact below event mem
    · have before : ∀ after, label ≠ .subscribe sessionId after := fun after same =>
        subscribes ⟨after, same⟩
      obtain ⟨unsubscribed, same, still⟩ :=
        untouched_of_move sound.allocated move once before subscribed uncaught
      refine ⟨allocated, position, closed, fun _ => ⟨same.trans fresh, still⟩, cursor, ?_,
        fun subscribed => absurd subscribed unsubscribed⟩
      rw [same]
      exact sound.ordered

theorem Sound.step (once : feed.Subscribes sessionId afterEventId label)
    (stepped : feed.step label = some after) : after.Sound sessionId afterEventId := by
  have allocated := sound.allocated.step stepped
  rcases step_cases stepped with move | ⟨socket, move, rfl⟩
  · exact sound.writer move
  · exact sound.move move once allocated

end

theorem sound_start : ({} : Feed).Sound sessionId afterEventId where
  allocated := by
    constructor <;> simp [inserted, Brought]
  position := le_rfl
  closed _ := nofun
  unsubscribed _ := ⟨rfl, nofun⟩
  cursor := nofun
  ordered := ⟨List.Pairwise.nil, nofun⟩
  above := nofun

/-- The runs in which the socket subscribes to the session, once, from the given id. -/
def subscribedRuns (sessionId : String) (afterEventId : Int) : Machine Feed FeedLabel :=
  machine.guarded fun feed label => feed.Subscribes sessionId afterEventId label

theorem sound_of_reaches (reaches : (subscribedRuns sessionId afterEventId).Reaches feed) :
    feed.Sound sessionId afterEventId := by
  apply reaches.invariant (motive := fun feed => feed.Sound sessionId afterEventId)
  · rintro state rfl
    exact sound_start
  · rintro state label after - sound ⟨once, stepped⟩
    exact sound.step once stepped

/-- No transaction commits an event of the session behind the mark, and no frame is received
before an event of the session that has a smaller id and is not sent. -/
def InOrder (sessionId : String) (afterEventId : Int) (feed : Feed) : FeedLabel → Prop
  | .commit writer => sessionId ∈ feed.socket.subscriptions →
      ∀ transaction ∈ feed.transactions[writer]?,
        ∀ event ∈ transaction.frames, event.sessionId = sessionId →
          afterEventId < event.eventId → feed.socket.highWater sessionId < event.eventId
  | .receive => sessionId ∈ feed.socket.subscriptions →
      feed.channel.length - feed.socket.next ≤ eventChannelCapacity →
        ∀ frame ∈ feed.channel[feed.socket.next]?, frame.sessionId = sessionId →
          ∀ event ∈ feed.events, event.sessionId = sessionId →
            feed.socket.highWater sessionId < event.eventId → frame.eventId ≤ event.eventId
  | _ => True

/-- An event of the session that has still to come to the socket. -/
def UnderWay (sessionId : String) (feed : Feed) (event : EventFrame) : Prop :=
  event ∈ feed.publishers.flatten ∨ event ∈ feed.channel.drop feed.socket.next ∨
    sessionId ∈ feed.socket.toCatch

/-- Nothing is lost: what is stored was sent, or will be above the mark. -/
def Covered (sessionId : String) (afterEventId : Int) (feed : Feed) : Prop :=
  sessionId ∈ feed.socket.subscriptions →
    ∀ event ∈ feed.events, event.sessionId = sessionId → afterEventId < event.eventId →
      event ∈ (feed.socket.receiver sessionId).taken ∨
        (feed.socket.highWater sessionId < event.eventId ∧ feed.UnderWay sessionId event)

theorem Covered.writer (covered : feed.Covered sessionId afterEventId)
    (position : feed.socket.next ≤ feed.channel.length)
    (inOrder : feed.InOrder sessionId afterEventId label) (move : WriterMove feed label after) :
    after.Covered sessionId afterEventId := by
  intro subscribed event stored ofSession newer
  cases move with
  | commit _ transaction found =>
    rcases mem_append.mp stored with old | new
    · refine (covered subscribed event old ofSession newer).imp_right fun pending => ?_
      refine ⟨pending.1, pending.2.imp_left fun unpublished => ?_⟩
      rw [flatten_append]
      exact mem_append_left _ unpublished
    · refine .inr ⟨inOrder subscribed transaction found event new ofSession newer, .inl ?_⟩
      simp [new]
  | publishEvent publisher frame rest found =>
    refine (covered subscribed event stored ofSession newer).imp_right fun pending => ?_
    refine ⟨pending.1, ?_⟩
    show event ∈ (feed.publishers.set publisher rest).flatten ∨
      event ∈ (feed.channel ++ [frame]).drop feed.socket.next ∨ _
    rw [drop_append_of_le_length position, mem_append, mem_singleton]
    rcases pending.2 with unpublished | broadcast | caught
    · rcases (mem_flatten_set found event).mp unpublished with rfl | still
      · exact .inr (.inl (.inr rfl))
      · exact .inl still
    · exact .inr (.inl (.inl broadcast))
    · exact .inr (.inr caught)
  | publishEphemeral =>
    refine (covered subscribed event stored ofSession newer).imp_right fun pending => ?_
    refine ⟨pending.1, pending.2.imp_right (Or.imp_left fun broadcast => ?_)⟩
    rw [drop_append_of_le_length position]
    exact mem_append_left _ broadcast
  | clearSessionEvents =>
    exact covered subscribed event (mem_filter.mp stored).1 ofSession newer
  | _ => exact covered subscribed event stored ofSession newer

theorem Sound.covers_frame (sound : feed.Sound sessionId afterEventId)
    (found : feed.channel[feed.socket.next]? = some frame)
    (subscribed : sessionId ∈ feed.socket.subscriptions)
    (inOrder : frame.sessionId = sessionId → frame.eventId ≤ event.eventId)
    (stored : event ∈ feed.events) (ofSession : event.sessionId = sessionId)
    (above : feed.socket.highWater sessionId < event.eventId)
    (underWay : feed.UnderWay sessionId event) :
    let socket := { feed.socket with next := feed.socket.next + 1 }.forward frame
    event ∈ (socket.receiver sessionId).taken ∨ (socket.highWater sessionId < event.eventId ∧
        ({ feed with socket } : Feed).UnderWay sessionId event) := by
  intro socket
  set receiver := feed.socket.receiver sessionId
  have broadcast : feed.Brought frame := .inr (.inr (.inl (mem_of_getElem? found)))
  have positive := sound.allocated.stored event stored
  have rest := forward_sameRest { feed.socket with next := feed.socket.next + 1 } frame
  have still : event ≠ frame → ({ feed with socket } : Feed).UnderWay sessionId event := by
    intro apart
    obtain ⟨bound, isFrame⟩ := List.getElem?_eq_some_iff.mp found
    rcases underWay with unpublished | broadcast | caught
    · exact .inl unpublished
    · rw [drop_eq_getElem_cons bound, isFrame] at broadcast
      refine .inr (.inl ?_)
      rw [rest.next]
      exact (mem_cons.mp broadcast).resolve_left apart
    · refine .inr (.inr ?_)
      rw [toCatch, rest.point]
      exact caught
  by_cases taken : frame.sessionId = sessionId ∧ 0 < frame.eventId
  · have offered : socket.receiver sessionId = receiver.offer (·.eventId) frame := by
      rw [forward_receiver taken.2, if_pos ⟨taken.1, subscribed⟩]
      rfl
    show event ∈ (socket.receiver sessionId).taken ∨ ((socket.receiver sessionId).mark < _ ∧ _)
    rw [offered]
    rcases (inOrder taken.1).eq_or_lt with same | less
    · have isFrame : frame = event :=
        sound.allocated.unique frame event broadcast (.inl stored) taken.2 same
      refine .inl (Receiver.mem_offer_iff.mpr (.inr ⟨isFrame.symm, ?_⟩))
      rw [isFrame]
      exact above
    · have apart : event ≠ frame := by
        rintro rfl
        exact absurd less (lt_irrefl _)
      refine .inr ⟨?_, still apart⟩
      rcases le_or_gt frame.eventId receiver.mark with old | new
      · rw [Receiver.offer_of_le old]
        exact above
      · rw [Receiver.offer_of_lt new]
        exact less
  · have apart : event ≠ frame := by
      rintro rfl
      exact taken ⟨ofSession, positive⟩
    have same : socket.receiver sessionId = receiver := by
      by_cases persisted : 0 < frame.eventId
      · rw [forward_receiver persisted, if_neg fun both => taken ⟨both.1, persisted⟩]
        rfl
      · exact forward_receiver_ephemeral (not_lt.mp persisted)
    show event ∈ (socket.receiver sessionId).taken ∨ ((socket.receiver sessionId).mark < _ ∧ _)
    rw [same]
    exact .inr ⟨above, still apart⟩

theorem Sound.covers_page (sound : feed.Sound sessionId afterEventId)
    (catching : feed.socket.point = .catching sessionId cursor rest) (stored : event ∈ feed.events)
    (ofSession : event.sessionId = sessionId)
    (above : feed.socket.highWater sessionId < event.eventId) :
    let socket := feed.socket.readPage feed.events sessionId cursor rest
    event ∈ (socket.receiver sessionId).taken ∨ (socket.highWater sessionId < event.eventId ∧
        ({ feed with socket } : Feed).UnderWay sessionId event) := by
  intro socket
  have current := sound.cursor _ _ catching
  have rows := sound.allocated.rows
  rcases Store.eventsAfterPage_complete rows cursor none stored ofSession
    (current ▸ above) with read | ⟨next, more, left⟩
  · left
    have offered : socket.receiver sessionId =
        (feed.socket.receiver sessionId).offerAll (·.eventId) _ :=
      (readPage_receiver sound.allocated.stored).trans (if_pos rfl)
    rw [offered, Receiver.offerAll_taken]
    · exact mem_append_right _ read
    · exact Store.eventsAfterPage_increasing rows _ _ _
    · intro each mem
      show feed.socket.highWater sessionId < each.eventId
      rw [← current]
      exact (Store.mem_eventsAfterPage mem).2.2
  · refine .inr ⟨?_, .inr (.inr ?_)⟩
    · rw [← sound.highWater_readPage current more]
      exact left
    · show sessionId ∈ (feed.socket.readPage feed.events sessionId cursor rest).toCatch
      rw [readPage_of_some more]
      exact (.head _)

/-- A move of the socket loses nothing that is committed in order. -/
theorem Covered.move (covered : feed.Covered sessionId afterEventId)
    (sound : feed.Sound sessionId afterEventId)
    (once : feed.Subscribes sessionId afterEventId label)
    (inOrder : feed.InOrder sessionId afterEventId label) (move : SocketMove feed label socket)
    (before : sessionId ∈ feed.socket.subscriptions) :
    ({ feed with socket } : Feed).Covered sessionId afterEventId := by
  intro subscribed event stored ofSession newer
  rcases covered before event stored ofSession newer with taken | ⟨above, underWay⟩
  · obtain ⟨-, events, offered⟩ := offered_of_move sound.allocated move once before
    left
    rw [offered]
    exact Receiver.mem_offerAll taken events
  have unchanged (receiver : socket.receiver sessionId = feed.socket.receiver sessionId)
      (still : ({ feed with socket } : Feed).UnderWay sessionId event) :
      event ∈ (socket.receiver sessionId).taken ∨ (socket.highWater sessionId < event.eventId ∧
          ({ feed with socket } : Feed).UnderWay sessionId event) := by
    refine .inr ⟨?_, still⟩
    show (socket.receiver sessionId).mark < event.eventId
    rw [receiver]
    exact above
  cases move with
  | connect closed => exact absurd before (sound.closed closed)
  | subscribe other _ waiting =>
    have apart : sessionId ≠ other := fun same => (once same.symm).1 before
    refine unchanged (eventsSubscribe_receiver_of_ne apart)
      (underWay.imp_right (Or.imp (fun broadcast => ?_) fun caught => ?_))
    · show event ∈ feed.channel.drop (feed.socket.eventsSubscribe _ _ _).next
      rwa [eventsSubscribe_next]
    · rw [toCatch, waiting] at caught
      cases caught
  | unsubscribe other =>
    have apart : other ≠ sessionId := once
    exact unchanged (eventsUnsubscribe_receiver apart.symm) underWay
  | lags =>
    refine unchanged ?_ (.inr (.inr ?_))
    · rw [catchUp_receiver, receiver_next]
    · show sessionId ∈ (catchUp _ feed.socket.subscriptions).toCatch
      rw [catchUp_toCatch]
      exact before
  | frame frame _ kept found =>
    exact sound.covers_frame found before (fun same =>
      inOrder before kept frame found same event stored ofSession above)
      stored ofSession above underWay
  | page other _ rest catching =>
    by_cases same : other = sessionId
    · subst same
      exact sound.covers_page catching stored ofSession above
    · refine unchanged ?_ (underWay.imp_right (Or.imp (fun broadcast => ?_) fun caught => ?_))
      · rw [readPage_receiver sound.allocated.stored, if_neg same]
      · show event ∈ feed.channel.drop (feed.socket.readPage _ _ _ _).next
        rwa [readPage_next]
      · rw [toCatch, catching] at caught
        have isRest : sessionId ∈ rest := (mem_cons.mp caught).resolve_left (Ne.symm same)
        exact mem_toCatch_readPage isRest

theorem covered_subscribed {afterEventId : Int} (sound : feed.Sound sessionId afterEventId)
    (fresh : feed.socket.receiver sessionId = ⟨0, []⟩)
    (onePage : feed.OnePage sessionId afterEventId) :
    let socket := feed.socket.eventsSubscribe feed.events sessionId (some afterEventId)
    ({ feed with socket } : Feed).Covered sessionId afterEventId := by
  intro socket _ event stored ofSession newer
  left
  obtain ⟨taken, -, -⟩ := eventsSubscribe_receiver afterEventId fresh sound.allocated.stored
  rw [taken]
  rcases Store.eventsAfterPage_complete sound.allocated.rows (some afterEventId) none
    stored ofSession newer with read | ⟨cursor, more, -⟩
  · exact read
  · rw [Store.eventsAfterPage_next_of_le onePage] at more
    cases more

theorem Covered.step (covered : feed.Covered sessionId afterEventId)
    (sound : feed.Sound sessionId afterEventId)
    (once : feed.Subscribes sessionId afterEventId label)
    (inOrder : feed.InOrder sessionId afterEventId label) (stepped : feed.step label = some after) :
    after.Covered sessionId afterEventId := by
  rcases step_cases stepped with move | ⟨socket, move, rfl⟩
  · exact covered.writer sound.position inOrder move
  by_cases before : sessionId ∈ feed.socket.subscriptions
  · exact covered.move sound once inOrder move before
  obtain ⟨fresh, uncaught⟩ := sound.unsubscribed before
  by_cases subscribes : ∃ after, label = .subscribe sessionId after
  · obtain ⟨after, rfl⟩ := subscribes
    obtain ⟨-, rfl, onePage⟩ := once rfl
    cases move with
    | subscribe => exact covered_subscribed sound fresh onePage
  · have untouched := untouched_of_move sound.allocated move once
      (fun after same => subscribes ⟨after, same⟩) before uncaught
    exact fun subscribed => absurd subscribed untouched.1

/-- The runs of one subscription in which nothing of the session is overtaken. -/
def orderedRuns (sessionId : String) (afterEventId : Int) : Machine Feed FeedLabel :=
  machine.guarded fun feed label =>
    feed.Subscribes sessionId afterEventId label ∧ feed.InOrder sessionId afterEventId label

section

variable (reaches : (orderedRuns sessionId afterEventId).Reaches feed)
include reaches

theorem orderedRuns_reaches : (subscribedRuns sessionId afterEventId).Reaches feed := by
  induction reaches with
  | start initially => exact .start initially
  | next _ last ih => exact .next ih ⟨last.1.1, last.2⟩

theorem covered_of_reaches : feed.Covered sessionId afterEventId := by
  apply reaches.invariant (motive := fun feed => feed.Covered sessionId afterEventId)
  · rintro state rfl
    exact nofun
  · rintro state label after prior covered ⟨⟨once, inOrder⟩, stepped⟩
    exact covered.step (sound_of_reaches (orderedRuns_reaches prior)) once inOrder stepped

end

/-- Every writer has broadcast what it committed, and the socket has received it. -/
structure Settled (feed : Feed) : Prop where
  published : ∀ frames ∈ feed.publishers, frames = []
  received : feed.socket.next = feed.channel.length
  waiting : feed.socket.point = .waiting

def sentOf (feed : Feed) (sessionId : String) : List EventFrame :=
  feed.socket.sent.filter fun frame => frame.sessionId = sessionId && frame.eventId ≠ 0

/-- What a subscriber is promised: the frames come in the order of their ids, and when all is
settled every stored event after the given id was sent once. -/
structure Delivered (sessionId : String) (afterEventId : Int) (feed : Feed) : Prop where
  increasing : (feed.sentOf sessionId).Pairwise fun one other => one.eventId < other.eventId
  once : sessionId ∈ feed.socket.subscriptions → feed.Settled →
    ∀ event ∈ feed.events, event.sessionId = sessionId → afterEventId < event.eventId →
      (feed.sentOf sessionId).filter (·.eventId = event.eventId) = [event]

theorem sentOf_eq_taken (allocated : feed.Allocated) (sessionId : String) :
    feed.sentOf sessionId = (feed.socket.receiver sessionId).taken := by
  refine filter_congr fun event mem => ?_
  have := (allocated.brought event (.inr (.inr (.inr mem)))).1
  congr 1
  rw [decide_eq_decide]
  omega

theorem Sound.increasing (sound : feed.Sound sessionId afterEventId) :
    (feed.sentOf sessionId).Pairwise fun one other => one.eventId < other.eventId := by
  rw [sentOf_eq_taken sound.allocated]
  exact sound.ordered.increasing

theorem not_underWay_of_settled (settled : feed.Settled) (event : EventFrame) :
    ¬ feed.UnderWay sessionId event := by
  rintro (unpublished | broadcast | caught)
  · obtain ⟨frames, mem, listed⟩ := mem_flatten.mp unpublished
    rw [settled.published frames mem] at listed
    cases listed
  · rw [settled.received, drop_length] at broadcast
    cases broadcast
  · rw [toCatch, settled.waiting] at caught
    cases caught

theorem filter_eq_singleton {events : List EventFrame}
    (increasing : events.Pairwise fun one other => one.eventId < other.eventId)
    (mem : event ∈ events) : events.filter (·.eventId = event.eventId) = [event] := by
  induction events with
  | nil => cases mem
  | cons _ _ ih =>
    rw [pairwise_cons] at increasing
    rcases mem_cons.mp mem with rfl | later
    · rw [filter_cons_of_pos (by simp), filter_eq_nil_iff.mpr]
      intro other isRest
      have := increasing.1 other isRest
      rw [decide_eq_true_iff]
      omega
    · have := increasing.1 event later
      rw [filter_cons_of_neg (by rw [decide_eq_true_iff]; omega)]
      exact ih increasing.2 later

/-- Where nothing is overtaken, every stored event is sent once. -/
theorem delivered_of_ordered (reaches : (orderedRuns sessionId afterEventId).Reaches feed) :
    feed.Delivered sessionId afterEventId := by
  have sound := sound_of_reaches (orderedRuns_reaches reaches)
  refine ⟨sound.increasing, fun subscribed settled event stored ofSession newer => ?_⟩
  rcases covered_of_reaches reaches subscribed event stored ofSession newer with
    taken | ⟨-, underWay⟩
  · apply filter_eq_singleton sound.increasing
    rw [sentOf_eq_taken sound.allocated]
    exact taken
  · exact absurd underWay (not_underWay_of_settled settled event)

instance : (label : FeedLabel) → Decidable (feed.Subscribes sessionId afterEventId label)
  | .subscribe .. => inferInstanceAs (Decidable (_ → _ ∧ _ ∧ (_ : Int) ≤ _))
  | .unsubscribe _ => inferInstanceAs (Decidable (_ ≠ _))
  | .begin | .lockSession .. | .insertEvent .. | .commit _ | .rollback _ | .publishEvent _
  | .publishEphemeral .. | .clearSessionEvents _ | .connect | .receive | .readPage =>
    .isTrue trivial

instance : (label : FeedLabel) → Decidable (feed.InOrder sessionId afterEventId label)
  | .commit writer => inferInstanceAs (Decidable (_ →
      ∀ transaction ∈ feed.transactions[writer]?, ∀ event ∈ transaction.frames, _ → _ → _ < _))
  | .receive => inferInstanceAs (Decidable (_ → _ ≤ _ →
      ∀ frame ∈ feed.channel[feed.socket.next]?, _ → ∀ event ∈ feed.events, _ → _ → _ ≤ _))
  | .begin | .lockSession .. | .insertEvent .. | .rollback _ | .publishEvent _
  | .publishEphemeral .. | .clearSessionEvents _ | .connect | .subscribe .. | .unsubscribe _
  | .readPage => .isTrue trivial

def enqueueScript : List FeedLabel :=
  [.begin, .lockSession 0 "session", .insertEvent 0 "session" .inputQueued .null, .commit 0]

def subscribeScript : List FeedLabel := [.connect, .subscribe "session" (some 0)]

def runChecked (check : Feed → FeedLabel → Bool) (script : List FeedLabel) : Option Feed :=
  script.foldlM (fun feed label => if check feed label then feed.step label else none) {}

/-- The rows, what was sent, and whether all is settled. -/
def outcome (feed : Feed) : List (Int × String) × List Int × List Bool :=
  (feed.events.map fun event => (event.eventId, event.sessionId),
    (feed.sentOf "session").map (·.eventId),
    [feed.socket.subscriptions.contains "session", feed.publishers.all (·.isEmpty),
      feed.socket.next == feed.channel.length,
      match feed.socket.point with | .waiting => true | _ => false])

theorem settled_of_outcome {rows : List (Int × String)} {sent : List Int}
    (result : feed.outcome = (rows, sent, [true, true, true, true])) :
    "session" ∈ feed.socket.subscriptions ∧ feed.Settled := by
  simp only [outcome, Prod.mk.injEq, List.cons.injEq, and_true] at result
  obtain ⟨-, -, subscribed, published, received, waiting⟩ := result
  refine ⟨contains_iff_mem.mp subscribed, ?_, beq_iff_eq.mp received, ?_⟩
  · intro frames mem
    exact List.isEmpty_iff.mp (List.all_eq_true.mp published frames mem)
  · split at waiting
    · assumption
    · cases waiting

/-- One input was queued before the subscription and one after it. -/
theorem delivered_of_ordered_queued : ∃ feed, (orderedRuns "session" 0).Reaches feed ∧
    feed.outcome = ([(1, "session"), (2, "session")], [1, 2], [true, true, true, true]) ∧
    feed.Delivered "session" 0 := by
  have runs : (runChecked
      (fun feed label => decide (feed.Subscribes "session" 0 label ∧ feed.InOrder "session" 0 label))
      (enqueueScript ++ subscribeScript ++ [.publishEvent 0, .receive] ++ enqueueScript ++
        [.publishEvent 1, .receive])).map outcome =
      some ([(1, "session"), (2, "session")], [1, 2], [true, true, true, true]) := by
    decide +kernel
  obtain ⟨feed, hRun, result⟩ := map_eq_some_iff.mp runs
  have reaches : (orderedRuns "session" 0).Reaches feed :=
    Machine.Reaches.checkedRun (fun _ _ => of_decide_eq_true) (.start rfl) hRun
  exact ⟨feed, reaches, result, delivered_of_ordered reaches⟩

/-- Two inputs are queued, and the frame of the second is broadcast first. -/
theorem overtaken_event_lost :
    ∃ feed, (subscribedRuns "session" 0).Reaches feed ∧ ¬ feed.Delivered "session" 0 := by
  have runs : (runChecked (fun feed label => decide (feed.Subscribes "session" 0 label))
      (subscribeScript ++ enqueueScript ++ enqueueScript ++
        [.publishEvent 1, .receive, .publishEvent 0, .receive])).map outcome =
      some ([(1, "session"), (2, "session")], [2], [true, true, true, true]) := by
    decide +kernel
  obtain ⟨feed, hRun, result⟩ := map_eq_some_iff.mp runs
  have reaches : (subscribedRuns "session" 0).Reaches feed :=
    Machine.Reaches.checkedRun (fun _ _ => of_decide_eq_true) (.start rfl) hRun
  refine ⟨feed, reaches, fun delivered => ?_⟩
  obtain ⟨subscribed, settled⟩ := settled_of_outcome result
  simp only [outcome, Prod.mk.injEq] at result
  obtain ⟨rows, sent, -⟩ := result
  have first : (1, "session") ∈ feed.events.map fun event => (event.eventId, event.sessionId) := by
    rw [rows]
    exact (.head _)
  obtain ⟨event, stored, same⟩ := mem_map.mp first
  obtain ⟨isFirst, ofSession⟩ := Prod.mk.inj same
  have newer : 0 < event.eventId := by omega
  have once := delivered.once subscribed settled event stored ofSession newer
  have isSent : event ∈ (feed.sentOf "session").filter (·.eventId = event.eventId) := by
    rw [once]
    exact (.head _)
  have listed : event.eventId ∈ (feed.sentOf "session").map (·.eventId) :=
    mem_map_of_mem (mem_filter.mp isSent).1
  rw [sent, isFirst] at listed
  exact absurd listed (by decide)

/-- Overtaken or not, frames are sent in the order of their ids, and as they are stored. -/
theorem sent_increasing (reaches : (subscribedRuns sessionId afterEventId).Reaches feed) :
    ((feed.sentOf sessionId).Pairwise fun one other => one.eventId < other.eventId) ∧
      ∀ frame ∈ feed.sentOf sessionId, frame.eventId < feed.nextEventId ∧
        ∀ event ∈ feed.events, event.eventId = frame.eventId → event = frame := by
  have sound := sound_of_reaches reaches
  have allocated := sound.allocated
  refine ⟨sound.increasing, fun frame mem => ?_⟩
  have sent : feed.Brought frame := .inr (.inr (.inr (mem_filter.mp mem).1))
  exact ⟨(allocated.brought frame sent).2, fun event stored =>
    allocated.unique event frame (.inl stored) sent (allocated.stored event stored)⟩

/-- The first event is replayed, the third overtakes the second, which is lost, and the fourth
comes in order. -/
theorem sent_increasing_overtaken : ∃ feed : Feed,
    (feed.events.map (·.eventId), (feed.sentOf "session").map (·.eventId)) =
        ([1, 2, 3, 4], [1, 3, 4]) ∧
      ((feed.sentOf "session").Pairwise fun one other => one.eventId < other.eventId) ∧
      ∀ frame ∈ feed.sentOf "session", frame.eventId < feed.nextEventId ∧
        ∀ event ∈ feed.events, event.eventId = frame.eventId → event = frame := by
  have runs : (runChecked (fun feed label => decide (feed.Subscribes "session" 0 label))
      (enqueueScript ++ subscribeScript ++ [.publishEvent 0, .receive] ++ enqueueScript ++
        enqueueScript ++ [.publishEvent 2, .receive, .publishEvent 1, .receive,
          .publishEphemeral "session" .sessionIdle .null, .receive] ++ enqueueScript ++
        [.publishEvent 3, .receive])).map
          (fun feed => (feed.events.map (·.eventId), (feed.sentOf "session").map (·.eventId))) =
      some ([1, 2, 3, 4], [1, 3, 4]) := by
    decide +kernel
  obtain ⟨feed, hRun, ids⟩ := map_eq_some_iff.mp runs
  exact ⟨feed, ids,
    sent_increasing (.checkedRun (fun _ _ => of_decide_eq_true) (.start rfl) hRun)⟩

end Feed

end PiRelay.Runtime
