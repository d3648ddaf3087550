import PiRelay.AgentStore.Events
import PiRelay.Library.HighWater
import PiRelay.Library.Machine

/-! What one socket is sent of the events of a session, while transactions commit events and
their writers broadcast the frames later. The socket has three sources, the replay of its
subscription, live frames, and the pages it reads after it has lagged behind, and one
high-water mark for each session. -/
namespace PiRelay.Runtime

open Library (Json Machine)
open Store (EventFrame EventType clearSessionEvents eventsAfterPage lastEventId)

def eventChannelCapacity : Nat := 1024

inductive SocketPoint where
  | closed
  | waiting
  -- The catch-up after a lag: the session it reads, and those that follow.
  | catching (sessionId : String) (cursor : Option Int) (rest : List String)

structure Socket where
  point : SocketPoint := .closed
  /-- The next frame of the channel that `events_rx` receives. -/
  next : Nat := 0
  subscriptions : List String := []
  eventHighWater : String → Option Int := fun _ => none
  sent : List EventFrame := []

namespace Socket

variable (socket : Socket)

variable (sessionId : String)

def highWater : Int :=
  (socket.eventHighWater sessionId).getD 0

def insertHighWater (eventId : Int) : Socket :=
  { socket with eventHighWater := Function.update socket.eventHighWater sessionId (some eventId) }

def send (events : List EventFrame) : Socket :=
  { socket with sent := socket.sent ++ events }

def insertSubscription : Socket :=
  if sessionId ∈ socket.subscriptions then socket
  else { socket with subscriptions := socket.subscriptions.orderedInsert (· ≤ ·) sessionId }

/-- `events.subscribe`, once it has the driver. -/
def eventsSubscribe (events : List EventFrame) (sessionId : String)
    (afterEventId : Option Int) : Socket :=
  let socket := socket.insertSubscription sessionId
  match afterEventId with
  | none => socket.insertHighWater sessionId (lastEventId events sessionId)
  | some afterEventId =>
    let socket :=
      socket.insertHighWater sessionId (max (socket.highWater sessionId) afterEventId)
    let page := eventsAfterPage events sessionId (some afterEventId) none
    let replayedMax := ((page.events.map (·.eventId)).max?).getD afterEventId
    let socket :=
      socket.insertHighWater sessionId (max (socket.highWater sessionId) replayedMax)
    socket.send page.events

def eventsUnsubscribe : Socket :=
  { socket with
    subscriptions := socket.subscriptions.filter (· ≠ sessionId)
    eventHighWater := Function.update socket.eventHighWater sessionId none }

def forward (event : EventFrame) : Socket :=
  if event.sessionId ∈ socket.subscriptions then
    -- Ephemeral frames have the id 0.
    if 0 < event.eventId then
      if event.eventId ≤ socket.highWater event.sessionId then socket
      else (socket.insertHighWater event.sessionId event.eventId).send [event]
    else socket.send [event]
  else socket

/-- An event of a page that the catch-up of a session has read. -/
def replay (socket : Socket) (event : EventFrame) : Socket :=
  if event.eventId ≤ socket.highWater sessionId then socket
  else (socket.insertHighWater sessionId event.eventId).send [event]

def catchUp : List String → Socket
  | [] => { socket with point := .waiting }
  | sessionId :: rest =>
    { socket with point := .catching sessionId (socket.eventHighWater sessionId) rest }

def readPage (events : List EventFrame) (sessionId : String)
    (cursor : Option Int) (rest : List String) : Socket :=
  let page := eventsAfterPage events sessionId cursor none
  let socket := page.events.foldl (replay sessionId) socket
  if page.hasMore then { socket with point := .catching sessionId page.nextAfterEventId rest }
  else socket.catchUp rest

/-- What `events_rx.recv` gives: a receiver that the channel has lapped learns that it
lagged, and goes on with the oldest frame that is kept. -/
def receive (channel : List EventFrame) : Option Socket :=
  if eventChannelCapacity < channel.length - socket.next then
    some ({ socket with next := channel.length - eventChannelCapacity }.catchUp
      socket.subscriptions)
  else
    channel[socket.next]?.map fun event => { socket with next := socket.next + 1 }.forward event

end Socket

/-- A transaction under way, with the session rows it has locked and the events it has
inserted. `insert_event` and `insert_events` lock no row. -/
structure EventTransaction where
  locks : List String := []
  frames : List EventFrame := []

structure Feed where
  nextEventId : Int := 1
  events : List EventFrame := []
  transactions : List EventTransaction := []
  /-- What the writers whose transactions are committed have yet to broadcast. -/
  publishers : List (List EventFrame) := []
  /-- All frames that were broadcast. -/
  channel : List EventFrame := []
  socket : Socket := {}

inductive FeedLabel where
  | begin
  | lockSession (writer : Nat) (sessionId : String)
  | insertEvent (writer : Nat) (sessionId : String) (event : EventType) (data : Json)
  | commit (writer : Nat)
  | rollback (writer : Nat)
  | publishEvent (publisher : Nat)
  | publishEphemeral (sessionId : String) (event : EventType) (data : Json)
  | clearSessionEvents (sessionId : String)
  | connect
  | subscribe (sessionId : String) (afterEventId : Option Int)
  | unsubscribe (sessionId : String)
  | receive
  | readPage

namespace Feed

variable (feed : Feed)

def insertEvent (writer : Nat) (sessionId : String) (event : EventType)
    (data : Json) : Option Feed :=
  feed.transactions[writer]?.map fun transaction =>
    let frame := { eventId := feed.nextEventId, event, sessionId, data }
    { feed with
      nextEventId := feed.nextEventId + 1
      transactions := feed.transactions.set writer
        { transaction with frames := transaction.frames ++ [frame] } }

def lockSession (writer : Nat) (sessionId : String) : Option Feed :=
  match feed.transactions[writer]? with
  | none => none
  | some transaction =>
    if (feed.transactions.eraseIdx writer).any (sessionId ∈ ·.locks) then none
    else
      some { feed with
        transactions := feed.transactions.set writer
          { transaction with locks := sessionId :: transaction.locks } }

def commit (writer : Nat) : Option Feed :=
  feed.transactions[writer]?.map fun transaction =>
    { feed with
      events := feed.events ++ transaction.frames
      transactions := feed.transactions.eraseIdx writer
      publishers := feed.publishers ++ [transaction.frames] }

/-- `publish_events` sends one frame after another. -/
def publishEvent (publisher : Nat) : Option Feed :=
  match feed.publishers[publisher]? with
  | some (frame :: rest) =>
    some { feed with
      publishers := feed.publishers.set publisher rest
      channel := feed.channel ++ [frame] }
  | _ => none

/-- A step of the socket, when it waits for requests and frames. -/
def whenWaiting (act : Socket → Option Socket) : Option Feed :=
  match feed.socket.point with
  | .waiting => (act feed.socket).map fun socket => { feed with socket }
  | _ => none

def step : FeedLabel → Option Feed
  | .begin => some { feed with transactions := feed.transactions ++ [{}] }
  | .lockSession writer sessionId => feed.lockSession writer sessionId
  | .insertEvent writer sessionId event data => feed.insertEvent writer sessionId event data
  | .commit writer => feed.commit writer
  | .rollback writer => some { feed with transactions := feed.transactions.eraseIdx writer }
  | .publishEvent publisher => feed.publishEvent publisher
  | .publishEphemeral sessionId event data =>
    some { feed with channel := feed.channel ++ [{ eventId := 0, event, sessionId, data }] }
  | .clearSessionEvents sessionId =>
    some { feed with events := Store.clearSessionEvents feed.events sessionId }
  | .connect =>
    match feed.socket.point with
    | .closed =>
      some { feed with
        socket := { feed.socket with point := .waiting, next := feed.channel.length } }
    | _ => none
  | .subscribe sessionId afterEventId =>
    feed.whenWaiting fun socket => some (socket.eventsSubscribe feed.events sessionId afterEventId)
  | .unsubscribe sessionId =>
    feed.whenWaiting fun socket => some (socket.eventsUnsubscribe sessionId)
  | .receive => feed.whenWaiting fun socket => socket.receive feed.channel
  | .readPage =>
    match feed.socket.point with
    | .catching sessionId cursor rest =>
      some { feed with socket := feed.socket.readPage feed.events sessionId cursor rest }
    | _ => none

/-- A fresh database, and no socket. -/
def machine : Machine Feed FeedLabel := .ofSteps (· = {}) step

end Feed

end PiRelay.Runtime
