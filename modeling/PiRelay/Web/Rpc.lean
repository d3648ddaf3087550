import Mathlib.Algebra.Ring.Int.Defs
import Mathlib.Data.List.Nodup
import PiRelay.Library.Machine

/-! The RPC client of the browser (`rpc.ts`). Sockets and requests are numbered in the order in
which they begin; what is sent and what is settled is logged. -/
namespace PiRelay.Web

open Library List

inductive ReadyState
  | connecting
  | open
  | closing
  | closed
deriving DecidableEq

/-- The promise that a socket opens. -/
inductive Opening
  | awaited
  | opened
  | rejected (message : String)
deriving DecidableEq

structure WebSocket where
  readyState : ReadyState
  opening : Opening

/-- A number of JavaScript. -/
inductive JsNumber
  | finite (value : Int)
  | notFinite

/-- What `connect` answers: a promise that is rejected, one that is resolved, or the promise of a
socket. -/
inductive Attempt
  | refused (message : String)
  | opened
  | joined (socket : Nat)

inductive RequestPhase
  | connecting (attempt : Attempt)
  | sent (id : String)
  | failed

structure RpcRequest where
  method : String
  /-- The parameters in JSON, or what is thrown where they cannot be written. -/
  params : Except String String
  timeoutMs : Int
  phase : RequestPhase

/-- What a response says. -/
inductive Answer
  | result (value : Option String)
  | error (code detail : String) (data : Option String)
deriving DecidableEq

inductive Settlement
  | answered (id : String) (socket : Nat) (answer : Answer)
  /-- `RpcTransportError` -/
  | transport (message : String)
  /-- A plain `Error`. -/
  | error (message : String)
deriving DecidableEq

/-- A request is sent on a socket, or its promise is resolved or rejected. -/
inductive RpcLogEntry
  | sent (request : Nat) (id : String) (socket : Nat)
  | settled (request : Nat) (settlement : Settlement)
deriving DecidableEq

structure AgentRpcClient where
  ws : Option Nat
  nextId : Nat
  pending : List (String × Nat)
  openPromise : Option Nat
  disposed : Bool
  reconnectTimer : Bool
  lastFrameAt : Int
  sockets : List WebSocket
  requests : List RpcRequest
  /-- The attempts whose rejection schedules another one. -/
  retries : List Nat
  log : List RpcLogEntry

inductive RpcFrame
  | malformed
  | response (id : String) (ok : Bool) (result code message data : Option String)
  | other

inductive RpcAction
  | connect
  | reconnect
  | close
  | request (method : String) (params : Except String String) (timeoutMs : Option JsNumber)
  | resume (request : Nat)
  | timeout (request : Nat) (now : Int)
  | opens (socket : Nat) (now : Int)
  | errors (socket : Nat)
  | message (socket : Nat) (frame : RpcFrame) (now : Int)
  | closing (socket : Nat)
  | closes (socket : Nat)
  | reconnectTimer
  | retry (socket : Nat)

def rpcRequestTimeoutMs : Int := 15000

namespace AgentRpcClient

variable (client : AgentRpcClient)

def isOpen : Bool :=
  (client.ws.bind (client.sockets[·]?)).any (·.readyState == .open)

/-- `connect` makes a socket of its own. -/
def opensSocket : Bool := !client.disposed && !client.isOpen && client.openPromise.isNone

def connect : AgentRpcClient × Attempt :=
  if client.disposed then (client, .refused "RPC client is disposed")
  else if client.isOpen then (client, .opened)
  else
    match client.openPromise with
    | some socket => (client, .joined socket)
    | none =>
      let socket := client.sockets.length
      ({ client with
          reconnectTimer := false
          sockets := client.sockets ++ [⟨.connecting, .awaited⟩]
          ws := some socket
          openPromise := some socket },
        .joined socket)

def settle (request : Nat) (settlement : Settlement) : AgentRpcClient :=
  { client with log := client.log ++ [.settled request settlement] }

def rejectPending (message : String) : AgentRpcClient :=
  { client with
    pending := []
    log := client.log ++ client.pending.map fun entry =>
      .settled entry.2 (.transport message) }

def rejectConnecting (message : String) : AgentRpcClient :=
  match client.openPromise with
  | none => client
  | some socket =>
    { client with
      openPromise := none
      sockets := client.sockets.modify socket fun other =>
        { other with opening := .rejected message } }

def closeSocket : Option Nat → AgentRpcClient
  | none => client
  | some socket =>
    { client with
      sockets := client.sockets.modify socket fun other =>
        if other.readyState = .closed then other else { other with readyState := .closing } }

def scheduleReconnect : AgentRpcClient := { client with reconnectTimer := true }

def abandon (message : String) : AgentRpcClient :=
  let rejected := ({ client with reconnectTimer := false }.rejectConnecting message).rejectPending
    message
  { rejected with ws := none }.closeSocket rejected.ws

def reconnect : AgentRpcClient :=
  if client.disposed then client
  else if client.openPromise.isSome then client
  else (client.abandon "websocket reconnecting").connect.1

def close : AgentRpcClient :=
  if client.disposed then client
  else { client with disposed := true }.abandon "websocket closed"

/-- The timeout of a request in milliseconds, where it is a positive finite number. -/
def requestTimeout (timeoutMs : Option JsNumber) : Option Int :=
  match timeoutMs.getD (.finite rpcRequestTimeoutMs) with
  | .notFinite => none
  | .finite value => if value ≤ 0 then none else some value

variable (index : Nat)

def setPhase (phase : RequestPhase) : AgentRpcClient :=
  { client with requests := client.requests.modify index fun other => { other with phase } }

def fail (message : String) : AgentRpcClient :=
  (client.setPhase index .failed).settle index (.error message)

def request (method : String) (params : Except String String)
    (timeoutMs : Option JsNumber) : AgentRpcClient :=
  match requestTimeout timeoutMs with
  | none =>
    let message := "RPC request timeout must be a positive finite number"
    let refused : AgentRpcClient :=
      { client with
        requests := client.requests ++ [⟨method, params, 0, .connecting (.refused message)⟩] }
    refused.fail client.requests.length message
  | some timeoutMs =>
    let (connected, attempt) := client.connect
    { connected with
      requests := connected.requests ++ [⟨method, params, timeoutMs, .connecting attempt⟩] }

/-- A request whose connection is there is sent, where the parameters can be written. -/
def dispatch (request : RpcRequest) : AgentRpcClient :=
  match client.ws, client.isOpen with
  | some socket, true =>
    let id := "web_" ++ toString client.nextId
    let registered : AgentRpcClient :=
      { client with
        nextId := client.nextId + 1
        pending := client.pending.filter (·.1 != id) ++ [(id, index)] }
    match request.params with
    | .ok _ =>
      { registered.setPhase index (.sent id) with
        log := registered.log ++ [.sent index id socket] }
    | .error message => registered.fail index message
  | _, _ => client.fail index "websocket is not open"

/-- A request goes on when the promise it waits for is settled. -/
def resume : Option AgentRpcClient :=
  match client.requests[index]? with
  | some ⟨method, params, timeoutMs, .connecting attempt⟩ =>
    let request : RpcRequest := ⟨method, params, timeoutMs, .connecting attempt⟩
    match attempt with
    | .refused message => some (client.fail index message)
    | .opened => some (client.dispatch index request)
    | .joined socket =>
      match client.sockets[socket]? with
      | some ⟨_, .opened⟩ => some (client.dispatch index request)
      | some ⟨_, .rejected message⟩ => some (client.fail index message)
      | _ => none
  | _ => none

def timeout (now : Int) : Option AgentRpcClient :=
  match client.requests[index]? with
  | some ⟨_, _, timeoutMs, .sent id⟩ =>
    match client.pending.lookup id with
    | none => some client
    | some request =>
      let rejected :=
        { client with pending := client.pending.filter (·.1 != id) }.settle request
          (.transport "websocket request timed out")
      if timeoutMs ≤ now - client.lastFrameAt then some (rejected.closeSocket rejected.ws)
      else some rejected
  | _ => none

def handleMessage (socket : Nat) (frame : RpcFrame) (now : Int) : AgentRpcClient :=
  let received := { client with lastFrameAt := now }
  match frame with
  | .malformed => received
  | .other => received
  | .response id ok result code message data =>
    match client.pending.lookup id with
    | none => received
    | some request =>
      let answer :=
        if ok then Answer.result result
        else .error (code.getD "rpc_error") (message.getD "request failed") data
      { received with pending := client.pending.filter (·.1 != id) }.settle request
        (.answered id socket answer)

/-- The `close` event of the current socket. -/
def handleClose : AgentRpcClient :=
  let rejected := { client.rejectConnecting "websocket closed" with ws := none }.rejectPending
    "websocket closed"
  if rejected.disposed then rejected else rejected.scheduleReconnect

def setReadyState (socket : Nat) (readyState : ReadyState) : AgentRpcClient :=
  { client with sockets := client.sockets.modify socket fun other => { other with readyState } }

def step : RpcAction → Option AgentRpcClient
  | .connect => some client.connect.1
  | .reconnect => some client.reconnect
  | .close => some client.close
  | .request method params timeoutMs => some (client.request method params timeoutMs)
  | .resume request => client.resume request
  | .timeout request now => client.timeout request now
  | .opens socket now =>
    match client.sockets[socket]? with
    | some ⟨.connecting, _⟩ =>
      let opened := client.setReadyState socket .open
      if client.ws = some socket then
        some
          { opened with
            lastFrameAt := now
            openPromise := none
            sockets := opened.sockets.modify socket fun other =>
              { other with opening := .opened } }
      else some opened
    | _ => none
  | .errors socket => if socket < client.sockets.length then some client else none
  | .message socket frame now =>
    match client.sockets[socket]? with
    | some ⟨.open, _⟩ =>
      some (if client.ws = some socket then client.handleMessage socket frame now else client)
    | _ => none
  | .closing socket =>
    if socket < client.sockets.length then some (client.closeSocket (some socket)) else none
  | .closes socket =>
    match client.sockets[socket]? with
    | none => none
    | some ⟨.closed, _⟩ => none
    | some _ =>
      let closed := client.setReadyState socket .closed
      some (if client.ws = some socket then closed.handleClose else closed)
  | .reconnectTimer =>
    if client.reconnectTimer then
      let (connected, attempt) := { client with reconnectTimer := false }.connect
      match attempt with
      | .joined socket => some { connected with retries := connected.retries ++ [socket] }
      | _ => some connected
    else none
  | .retry socket =>
    match client.retries.contains socket, client.sockets[socket]? with
    | true, some ⟨_, .rejected _⟩ =>
      let caught := { client with retries := client.retries.erase socket }
      some (if client.disposed then caught else caught.scheduleReconnect)
    | _, _ => none

def initial : AgentRpcClient := ⟨none, 1, [], none, false, false, 0, [], [], [], []⟩

end AgentRpcClient

def rpcMachine : Machine AgentRpcClient RpcAction :=
  .ofSteps (· = .initial) AgentRpcClient.step

def RpcLogEntry.request : RpcLogEntry → Nat
  | .sent request _ _ => request
  | .settled request _ => request

def RpcLogEntry.settledRequest : RpcLogEntry → Option Nat
  | .sent _ _ _ => none
  | .settled request _ => some request

def Attempt.isOpened (attempt : Attempt) (sockets : List WebSocket) : Bool :=
  match attempt with
  | .refused _ => false
  | .opened => true
  | .joined socket => sockets[socket]?.any (·.opening == .opened)

namespace AgentRpcClient

variable (client : AgentRpcClient)

def settledRequests : List Nat :=
  client.log.filterMap RpcLogEntry.settledRequest

/-- What is pending was sent on the current socket. A request is settled once; a response settles
the request that was sent under its ID on the socket it came from; and a request that is rejected
with a plain error was not sent. -/
structure Correlated (client : AgentRpcClient) : Prop where
  onCurrent : ∀ id request, (id, request) ∈ client.pending →
    ∃ socket, client.ws = some socket ∧ .sent request id socket ∈ client.log
  once : client.settledRequests.Nodup
  answered : ∀ request id socket answer,
    .settled request (.answered id socket answer) ∈ client.log →
      .sent request id socket ∈ client.log
  neverSent : ∀ request message, .settled request (.error message) ∈ client.log →
    ∀ id socket, .sent request id socket ∉ client.log

/-- A request that goes on now is registered and sent. -/
def sends (index : Nat) : Bool :=
  client.isOpen && client.requests[index]?.any fun request =>
    match request.phase with
    | .connecting attempt => attempt.isOpened client.sockets
    | _ => false

/-- No socket of its own is made while requests are pending, and what is sent can be written. -/
def Admits : RpcAction → Prop
  | .connect => client.opensSocket = true → client.pending = []
  | .request _ _ timeoutMs =>
    (requestTimeout timeoutMs).isSome = true → client.opensSocket = true → client.pending = []
  | .reconnectTimer =>
    client.reconnectTimer = true → client.opensSocket = true → client.pending = []
  | .resume index => client.sends index = true →
      ∀ request ∈ client.requests[index]?, request.params.isOk = true
  | _ => True

instance (client : AgentRpcClient) : DecidablePred client.Admits
  | .connect => inferInstanceAs (Decidable (_ → _))
  | .request .. | .reconnectTimer => inferInstanceAs (Decidable (_ → _ → _))
  | .resume index => inferInstanceAs (Decidable (_ → ∀ request ∈ client.requests[index]?, _))
  | .reconnect | .close | .timeout .. | .opens .. | .errors _ | .message .. | .closing _ | .closes _
  | .retry _ => .isTrue trivial

/-- A request that waits for its connection no longer. -/
def Begun (index : Nat) : Prop :=
  ∃ request, client.requests[index]? = some request ∧
    ∀ attempt, request.phase ≠ .connecting attempt

/-- What every step keeps, with what is needed for it. -/
structure Kept (client : AgentRpcClient) : Prop extends Correlated client where
  unsettled : ∀ entry ∈ client.pending, entry.2 ∉ client.settledRequests
  distinct : (client.pending.map (·.2)).Nodup
  begun : ∀ entry ∈ client.log, client.Begun entry.request

variable {client after : AgentRpcClient}

theorem Kept.of_same (kept : Kept client) (ws : after.ws = client.ws)
    (pending : after.pending = client.pending) (requests : after.requests = client.requests)
    (log : after.log = client.log) : Kept after := by
  obtain ⟨⟨onCurrent, once, answered, neverSent⟩, unsettled, distinct, begun⟩ := kept
  constructor
  · constructor
    · rw [ws, pending, log]
      exact onCurrent
    · rw [settledRequests, log]
      exact once
    · rw [log]
      exact answered
    · rw [log]
      exact neverSent
  · rw [pending, settledRequests, log]
    exact unsettled
  · rw [pending]
    exact distinct
  · intro entry mem
    rw [log] at mem
    rw [Begun, requests]
    exact begun entry mem

theorem Kept.of_idle (kept : Kept client) (idle : client.pending = [])
    (pending : after.pending = []) (requests : after.requests = client.requests)
    (log : after.log = client.log) : Kept after := by
  have moved : Kept { client with ws := after.ws } := by
    refine { kept with onCurrent := ?_ }
    intro id request mem
    rw [show ({ client with ws := after.ws } : AgentRpcClient).pending = [] from idle] at mem
    exact absurd mem not_mem_nil
  exact moved.of_same rfl (pending.trans idle.symm) requests log

theorem mem_settle {request : Nat} {settlement : Settlement} {entry : RpcLogEntry} :
    entry ∈ (client.settle request settlement).log ↔
      entry ∈ client.log ∨ entry = .settled request settlement := by
  simp [settle]

theorem settledRequests_settle (request : Nat) (settlement : Settlement) :
    (client.settle request settlement).settledRequests = client.settledRequests ++ [request] := by
  simp [settle, settledRequests, RpcLogEntry.settledRequest]

theorem mem_settledRequests {request : Nat} :
    request ∈ client.settledRequests ↔ ∃ settlement, .settled request settlement ∈ client.log := by
  rw [settledRequests, mem_filterMap]
  constructor
  · intro isSettled
    obtain ⟨entry, mem, isRequest⟩ := isSettled
    cases entry with
    | sent => cases isRequest
    | settled _ settlement =>
      cases isRequest
      exact ⟨settlement, mem⟩
  · intro isSettled
    obtain ⟨settlement, mem⟩ := isSettled
    exact ⟨_, mem, rfl⟩

theorem Kept.begun_of_settled (kept : Kept client) {request : Nat}
    (settled : request ∈ client.settledRequests) : client.Begun request := by
  obtain ⟨_, mem⟩ := mem_settledRequests.mp settled
  exact kept.begun _ mem

theorem Kept.begun_of_pending (kept : Kept client) {entry : String × Nat}
    (mem : entry ∈ client.pending) : client.Begun entry.2 := by
  obtain ⟨_, -, sent⟩ := kept.onCurrent entry.1 entry.2 mem
  exact kept.begun _ sent

theorem Kept.rejectPending (kept : Kept client) (message : String) :
    Kept (client.rejectPending message) := by
  have inLog : ∀ entry, entry ∈ (client.rejectPending message).log ↔ entry ∈ client.log ∨
      ∃ waiting ∈ client.pending, .settled waiting.2 (.transport message) = entry := by
    intro entry
    simp [AgentRpcClient.rejectPending]
  have settled : (client.rejectPending message).settledRequests =
      client.settledRequests ++ client.pending.map (·.2) := by
    simp [AgentRpcClient.rejectPending, settledRequests, RpcLogEntry.settledRequest,
      filterMap_map, Function.comp_def]
  constructor
  · constructor
    · intro id request mem
      exact absurd mem not_mem_nil
    · rw [settled, nodup_append]
      refine ⟨kept.once, kept.distinct, ?_⟩
      intro request isSettled other isPending same
      obtain ⟨entry, mem, rfl⟩ := mem_map.mp isPending
      exact kept.unsettled entry mem (same ▸ isSettled)
    · intro request id socket answer mem
      rcases (inLog _).mp mem with old | ⟨waiting, -, same⟩
      · exact (inLog _).mpr (.inl (kept.answered request id socket answer old))
      · cases same
    · intro request error mem id socket sent
      rcases (inLog _).mp mem with old | ⟨waiting, -, same⟩
      · rcases (inLog _).mp sent with sentBefore | ⟨other, -, same⟩
        · exact kept.neverSent request error old id socket sentBefore
        · cases same
      · cases same
  · intro entry mem
    exact absurd mem not_mem_nil
  · exact nodup_nil
  · intro entry mem
    rcases (inLog _).mp mem with old | ⟨waiting, isPending, rfl⟩
    · exact kept.begun entry old
    · exact kept.begun_of_pending isPending

variable {id : String} {index : Nat} {attempt : Attempt}

theorem Kept.settlePending (kept : Kept client) {request : Nat} (settlement : Settlement)
    (mem : (id, request) ∈ client.pending) (noError : ∀ message, settlement ≠ .error message)
    (fitting : ∀ answeredId socket answer, settlement = .answered answeredId socket answer →
      .sent request answeredId socket ∈ client.log) :
    Kept ({ client with pending := client.pending.filter (·.1 != id) }.settle request
      settlement) := by
  have remaining : ∀ entry ∈ client.pending.filter (·.1 != id),
      entry ∈ client.pending ∧ entry.2 ≠ request := by
    intro entry isRemaining
    obtain ⟨isPending, differs⟩ := mem_filter.mp isRemaining
    refine ⟨isPending, fun same => ?_⟩
    have isEntry := inj_on_of_nodup_map kept.distinct isPending mem same
    rw [isEntry] at differs
    exact absurd rfl (bne_iff_ne.mp differs)
  constructor
  · constructor
    · intro otherId other isRemaining
      obtain ⟨socket, isCurrent, sent⟩ := kept.onCurrent otherId other (remaining _ isRemaining).1
      exact ⟨socket, isCurrent, mem_settle.mpr (.inl sent)⟩
    · rw [settledRequests_settle, nodup_append]
      refine ⟨kept.once, nodup_singleton request, ?_⟩
      intro other isSettled same isSame equal
      rw [mem_singleton.mp isSame] at equal
      exact kept.unsettled _ mem (equal ▸ isSettled)
    · intro other otherId socket answer isSettled
      refine mem_settle.mpr (.inl ?_)
      rcases mem_settle.mp isSettled with old | new
      · exact kept.answered other otherId socket answer old
      · injection new with sameRequest sameSettlement
        rw [sameRequest]
        exact fitting otherId socket answer sameSettlement.symm
    · intro other message isSettled otherId socket sent
      rcases mem_settle.mp sent with sentBefore | new
      · rcases mem_settle.mp isSettled with old | new
        · exact kept.neverSent other message old otherId socket sentBefore
        · injection new with sameRequest sameSettlement
          exact noError message sameSettlement.symm
      · cases new
  · intro entry isRemaining
    obtain ⟨isPending, differs⟩ := remaining entry isRemaining
    rw [settledRequests_settle, mem_append, mem_singleton, not_or]
    exact ⟨kept.unsettled entry isPending, differs⟩
  · exact kept.distinct.sublist (filter_sublist.map _)
  · intro entry isLogged
    rcases mem_settle.mp isLogged with old | rfl
    · exact kept.begun entry old
    · exact kept.begun_of_pending mem

theorem Begun.setPhase {phase : RequestPhase} (begun : client.Begun index) {changed : Nat}
    (final : ∀ attempt, phase ≠ .connecting attempt) :
    (client.setPhase changed phase).Begun index := by
  obtain ⟨_, found, begins⟩ := begun
  rw [Begun, AgentRpcClient.setPhase, getElem?_modify, found]
  split
  · exact ⟨_, rfl, final⟩
  · exact ⟨_, rfl, begins⟩

theorem Begun.of_setPhase {phase : RequestPhase} {request : RpcRequest}
    (found : client.requests[index]? = some request)
    (final : ∀ attempt, phase ≠ .connecting attempt) :
    (client.setPhase index phase).Begun index := by
  refine ⟨{ request with phase }, ?_, final⟩
  simp [AgentRpcClient.setPhase, found]

theorem not_begun {request : RpcRequest} (found : client.requests[index]? = some request)
    (waits : request.phase = .connecting attempt) : ¬ client.Begun index := by
  intro begun
  obtain ⟨_, isOther, begins⟩ := begun
  cases found.symm.trans isOther
  exact begins attempt waits

section

variable (kept : Kept client)
include kept

section

variable {request : RpcRequest} (found : client.requests[index]? = some request)
  (waits : request.phase = .connecting attempt)
include found waits

theorem Kept.fail (message : String) : Kept (client.fail index message) := by
  have notBegun := not_begun found waits
  have settled : (client.fail index message).settledRequests =
      client.settledRequests ++ [index] := settledRequests_settle _ _
  constructor
  · constructor
    · intro id other mem
      obtain ⟨socket, isCurrent, sent⟩ := kept.onCurrent id other mem
      exact ⟨socket, isCurrent, mem_settle.mpr (.inl sent)⟩
    · rw [settled, nodup_append]
      refine ⟨kept.once, nodup_singleton index, ?_⟩
      intro other isSettled same isSame equal
      rw [mem_singleton.mp isSame] at equal
      exact notBegun (equal ▸ kept.begun_of_settled isSettled)
    · intro other id socket answer isSettled
      rcases mem_settle.mp isSettled with old | new
      · exact mem_settle.mpr (.inl (kept.answered other id socket answer old))
      · cases new
    · intro other error isSettled id socket sent
      rcases mem_settle.mp sent with sentBefore | new
      · rcases mem_settle.mp isSettled with old | new
        · exact kept.neverSent other error old id socket sentBefore
        · cases new
          exact notBegun (kept.begun _ sentBefore)
      · cases new
  · intro entry mem
    rw [settled, mem_append, mem_singleton, not_or]
    refine ⟨kept.unsettled entry mem, ?_⟩
    rintro rfl
    exact notBegun (kept.begun_of_pending mem)
  · exact kept.distinct
  · have final : ∀ attempt, RequestPhase.failed ≠ .connecting attempt := by
      intro attempt
      simp
    intro entry isLogged
    rcases mem_settle.mp isLogged with old | rfl
    · exact (kept.begun entry old).setPhase final
    · exact Begun.of_setPhase found final

theorem Kept.send {socket : Nat} (isCurrent : client.ws = some socket) (ws : after.ws = client.ws)
    (pending : after.pending = client.pending.filter (·.1 != id) ++ [(id, index)])
    (requests : after.requests = (client.setPhase index (.sent id)).requests)
    (log : after.log = client.log ++ [.sent index id socket]) : Kept after := by
  have notBegun := not_begun found waits
  have inLog : ∀ entry, entry ∈ after.log ↔ entry ∈ client.log ∨ entry = .sent index id socket := by
    intro entry
    rw [log, mem_append, mem_singleton]
  have inPending : ∀ entry, entry ∈ after.pending →
      entry ∈ client.pending ∨ entry = (id, index) := by
    intro entry mem
    rw [pending, mem_append, mem_filter, mem_singleton] at mem
    exact mem.imp_left And.left
  have settled : after.settledRequests = client.settledRequests := by
    simp [settledRequests, log, RpcLogEntry.settledRequest]
  constructor
  · constructor
    · intro otherId other mem
      rcases inPending _ mem with old | new
      · obtain ⟨own, isOwn, sent⟩ := kept.onCurrent otherId other old
        exact ⟨own, ws.trans isOwn, (inLog _).mpr (.inl sent)⟩
      · cases new
        exact ⟨socket, ws.trans isCurrent, (inLog _).mpr (.inr rfl)⟩
    · rw [settled]
      exact kept.once
    · intro other otherId own answer isSettled
      rcases (inLog _).mp isSettled with old | new
      · exact (inLog _).mpr (.inl (kept.answered other otherId own answer old))
      · cases new
    · intro other message isSettled otherId own sent
      rcases (inLog _).mp isSettled with old | new
      · rcases (inLog _).mp sent with sentBefore | new
        · exact kept.neverSent other message old otherId own sentBefore
        · cases new
          exact notBegun (kept.begun _ old)
      · cases new
  · intro entry mem
    rw [settled]
    rcases inPending entry mem with old | rfl
    · exact kept.unsettled entry old
    · intro isSettled
      exact notBegun (kept.begun_of_settled isSettled)
  · rw [pending, map_append, nodup_append]
    refine ⟨kept.distinct.sublist (filter_sublist.map _), nodup_singleton index, ?_⟩
    intro other isPending same isSame equal
    obtain ⟨entry, mem, rfl⟩ := mem_map.mp isPending
    have sameIndex : entry.2 = index := equal.trans (mem_singleton.mp isSame)
    exact notBegun (sameIndex ▸ kept.begun_of_pending (mem_filter.mp mem).1)
  · have final : ∀ attempt, RequestPhase.sent id ≠ .connecting attempt := by
      intro attempt
      simp
    intro entry isLogged
    rw [Begun, requests]
    rcases (inLog entry).mp isLogged with old | rfl
    · exact (kept.begun entry old).setPhase final
    · exact Begun.of_setPhase found final

theorem Kept.dispatch (writable : client.isOpen → request.params.isOk) :
    Kept (client.dispatch index request) := by
  rw [AgentRpcClient.dispatch]
  split
  · rename_i socket isCurrent isOpen
    have isWritable := writable isOpen
    split
    · exact kept.send found waits isCurrent rfl rfl rfl rfl
    · rename_i message isError
      rw [isError] at isWritable
      cases isWritable
  · exact kept.fail found waits _

end

theorem Kept.begin (request : RpcRequest) :
    Kept { client with requests := client.requests ++ [request] } := by
  refine { kept with begun := ?_ }
  intro entry mem
  obtain ⟨other, found, begins⟩ := kept.begun entry mem
  refine ⟨other, ?_, begins⟩
  rw [getElem?_append_left (List.getElem?_eq_some_iff.mp found).1]
  exact found

theorem Kept.connect (admits : client.opensSocket → client.pending = []) :
    Kept client.connect.1 := by
  rw [AgentRpcClient.connect]
  split
  · exact kept
  · rename_i notDisposed
    split
    · exact kept
    · rename_i notOpen
      split
      · exact kept
      · rename_i noPromise
        have idle : client.pending = [] := by
          apply admits
          simp [opensSocket, notDisposed, notOpen, noPromise]
        exact kept.of_idle idle idle rfl rfl

theorem Kept.rejectConnecting (message : String) : Kept (client.rejectConnecting message) := by
  rw [AgentRpcClient.rejectConnecting]
  split
  · exact kept
  · exact kept.of_same rfl rfl rfl rfl

theorem Kept.closeSocket (socket : Option Nat) : Kept (client.closeSocket socket) := by
  cases socket with
  | none => exact kept
  | some => exact kept.of_same rfl rfl rfl rfl

end

theorem pending_abandon (message : String) : (client.abandon message).pending = [] := by
  rw [AgentRpcClient.abandon]
  generalize AgentRpcClient.rejectConnecting _ message = rejected
  rw [AgentRpcClient.rejectPending]
  cases rejected.ws <;> rfl

section

variable (kept : Kept client)
include kept

theorem Kept.abandon (message : String) : Kept (client.abandon message) := by
  have timer : Kept { client with reconnectTimer := false } := kept.of_same rfl rfl rfl rfl
  have rejected := (timer.rejectConnecting message).rejectPending message
  have withoutSocket : Kept { (({ client with reconnectTimer := false } :
      AgentRpcClient).rejectConnecting message).rejectPending message with ws := none } :=
    rejected.of_idle rfl rfl rfl rfl
  exact withoutSocket.closeSocket _

theorem Kept.reconnect : Kept client.reconnect := by
  rw [AgentRpcClient.reconnect]
  split
  · exact kept
  · split
    · exact kept
    · exact (kept.abandon _).connect fun _ => pending_abandon _

theorem Kept.close : Kept client.close := by
  rw [AgentRpcClient.close]
  split
  · exact kept
  · have disposed : Kept { client with disposed := true } := kept.of_same rfl rfl rfl rfl
    exact disposed.abandon _

theorem Kept.request {method : String} {params : Except String String} {timeoutMs : Option JsNumber}
    (admits : client.Admits (.request method params timeoutMs)) :
    Kept (client.request method params timeoutMs) := by
  rw [AgentRpcClient.request]
  split
  · exact (kept.begin _).fail getElem?_concat_length rfl _
  · rename_i isTimeout
    have connected := kept.connect (admits (by rw [isTimeout]; rfl))
    exact connected.begin _

theorem Kept.resume (admits : client.Admits (.resume index))
    (isStep : client.resume index = some after) : Kept after := by
  rw [AgentRpcClient.resume] at isStep
  split at isStep
  · rename_i method params timeoutMs attempt found
    have writable : attempt.isOpened client.sockets → client.isOpen →
        params.isOk := by
      intro isOpened isOpen
      exact admits (by simp [sends, isOpen, found, isOpened]) _ found
    split at isStep
    · cases isStep
      exact kept.fail found rfl _
    · cases isStep
      exact kept.dispatch found rfl (writable rfl)
    · rename_i socket
      split at isStep
      · rename_i isOpened
        cases isStep
        exact kept.dispatch found rfl (writable (by simp [Attempt.isOpened, isOpened]))
      · cases isStep
        exact kept.fail found rfl _
      · cases isStep
  · cases isStep

end

theorem mem_of_lookup {request : Nat} (found : client.pending.lookup id = some request) :
    (id, request) ∈ client.pending := by
  obtain ⟨_, _, split, -⟩ := lookup_eq_some_iff.mp found
  rw [split]
  exact mem_append_right _ (.head _)

section

variable (kept : Kept client)
include kept

theorem Kept.timeout {now : Int} (isStep : client.timeout index now = some after) : Kept after := by
  rw [AgentRpcClient.timeout] at isStep
  split at isStep
  · rename_i id found
    split at isStep
    · cases isStep
      exact kept
    · rename_i request isPending
      have rejected := kept.settlePending (.transport "websocket request timed out")
        (mem_of_lookup isPending) (by simp) (by simp)
      split at isStep
      · cases isStep
        exact rejected.closeSocket _
      · cases isStep
        exact rejected
  · cases isStep

theorem Kept.handleMessage {socket : Nat} (isCurrent : client.ws = some socket) (frame : RpcFrame)
    (now : Int) : Kept (client.handleMessage socket frame now) := by
  have received : Kept { client with lastFrameAt := now } := kept.of_same rfl rfl rfl rfl
  cases frame with
  | malformed | other => exact received
  | response id =>
    rw [AgentRpcClient.handleMessage]
    split
    · exact received
    · rename_i request isPending
      have mem := mem_of_lookup isPending
      -- The request was sent on the socket that the response came from.
      obtain ⟨_, isOwn, sent⟩ := kept.onCurrent id request mem
      cases isCurrent.symm.trans isOwn
      apply received.settlePending _ mem
      · simp
      · intro answeredId answeredSocket answer isAnswer
        injection isAnswer with sameId sameSocket
        rw [← sameId, ← sameSocket]
        exact sent

theorem Kept.handleClose : Kept client.handleClose := by
  have rejected := (kept.rejectConnecting "websocket closed").rejectPending "websocket closed"
  have closed : Kept (AgentRpcClient.rejectPending { client.rejectConnecting "websocket closed"
      with ws := none } "websocket closed") := rejected.of_idle rfl rfl rfl rfl
  rw [AgentRpcClient.handleClose]
  split
  · exact closed
  · exact closed.of_same rfl rfl rfl rfl

/-- A step keeps each pending request with its socket. -/
theorem Kept.step {action : RpcAction} (admits : client.Admits action)
    (isStep : client.step action = some after) : Kept after := by
  cases action with
  | connect =>
    cases isStep
    exact kept.connect admits
  | reconnect =>
    cases isStep
    exact kept.reconnect
  | close =>
    cases isStep
    exact kept.close
  | request =>
    cases isStep
    exact kept.request admits
  | resume => exact kept.resume admits isStep
  | timeout => exact kept.timeout isStep
  | opens =>
    rw [AgentRpcClient.step] at isStep
    split at isStep
    · split at isStep <;>
        · cases isStep
          exact kept.of_same rfl rfl rfl rfl
    · cases isStep
  | errors =>
    rw [AgentRpcClient.step] at isStep
    split at isStep
    · cases isStep
      exact kept
    · cases isStep
  | message _ frame now =>
    rw [AgentRpcClient.step] at isStep
    split at isStep
    · cases isStep
      split
      · rename_i isCurrent
        exact kept.handleMessage isCurrent frame now
      · exact kept
    · cases isStep
  | closing =>
    rw [AgentRpcClient.step] at isStep
    split at isStep
    · cases isStep
      exact kept.closeSocket _
    · cases isStep
  | closes socket =>
    simp only [AgentRpcClient.step] at isStep
    split at isStep
    · cases isStep
    · cases isStep
    · have closed : Kept (client.setReadyState socket .closed) := kept.of_same rfl rfl rfl rfl
      cases isStep
      split
      · exact closed.handleClose
      · exact closed
  | reconnectTimer =>
    simp only [AgentRpcClient.step] at isStep
    split at isStep
    · rename_i isSet
      have unset : Kept { client with reconnectTimer := false } := kept.of_same rfl rfl rfl rfl
      have connected := unset.connect (admits isSet)
      split at isStep
      · cases isStep
        exact connected.of_same rfl rfl rfl rfl
      · cases isStep
        exact connected
    · cases isStep
  | retry =>
    rw [AgentRpcClient.step] at isStep
    split at isStep
    · cases isStep
      split <;> exact kept.of_same rfl rfl rfl rfl
    · cases isStep

end

theorem Kept.initial : Kept .initial := by
  constructor
  · constructor <;> simp [AgentRpcClient.initial, settledRequests]
  · simp [AgentRpcClient.initial]
  · simp [AgentRpcClient.initial]
  · simp [AgentRpcClient.initial]

end AgentRpcClient

open AgentRpcClient

/-- Every state is correlated in runs in which no socket is replaced under pending requests. -/
theorem rpc_correlated {client : AgentRpcClient}
    (reaches : (rpcMachine.guarded Admits).Reaches client) : Correlated client := by
  have kept : Kept client := by
    apply reaches.invariant
    · rintro _ rfl
      exact Kept.initial
    · intro state action after _ kept taken
      exact kept.step taken.1 taken.2
  exact kept.toCorrelated

/-- The timer of a request puts the silent socket down, and a third request makes a new one
before the old one has closed. -/
def replacingRun : List RpcAction :=
  [.connect, .opens 0 0, .request "slow" (.ok "{}") (some (.finite 330000)), .resume 0,
    .request "silent" (.ok "{}") none, .resume 1, .timeout 1 15000, .request "next" (.ok "{}") none]

/-- A request stays behind on the replaced socket. -/
theorem request_left_behind : ¬ ∀ client, rpcMachine.Reaches client → Correlated client := by
  have ends : (replacingRun.foldlM AgentRpcClient.step .initial).any fun client =>
      client.pending == [("web_1", 0)] && client.ws == some 1 &&
        !client.log.contains (.sent 0 "web_1" 1) := by
    decide +kernel
  obtain ⟨client, isRun, ends⟩ := (Option.any_eq_true _ _).mp ends
  simp only [Bool.and_eq_true, beq_iff_eq, Bool.not_eq_true', contains_eq_mem,
    decide_eq_false_iff_not] at ends
  obtain ⟨⟨isPending, isCurrent⟩, notSent⟩ := ends
  intro correlated
  have onCurrent := (correlated client (Machine.Reaches.run (.start rfl) isRun)).onCurrent
  obtain ⟨_, isSocket, sent⟩ := onCurrent "web_1" 0 (by rw [isPending]; simp)
  cases isCurrent.symm.trans isSocket
  exact notSent sent

def patientRpcRun : List RpcAction :=
  [.connect, .opens 0 0, .request "slow" (.ok "{}") (some (.finite 330000)), .resume 0,
    .request "silent" (.ok "{}") none, .resume 1, .timeout 1 15000, .closes 0,
    .request "next" (.ok "{}") none, .opens 1 15010, .resume 2,
    .message 1 (.response "web_1" true none none none none) 15020,
    .request "bad" (.ok "{}") (some .notFinite)]

/-- The slow request was rejected with its socket, and a late response finds nothing. -/
theorem patientRpcRun_correlated : ∃ client, (rpcMachine.guarded Admits).Reaches client ∧
    client.pending = [("web_3", 2)] ∧
      .settled 0 (.transport "websocket closed") ∈ client.log ∧ Correlated client := by
  have ends : (patientRpcRun.foldlM (fun (client : AgentRpcClient) action =>
      if decide (client.Admits action) then client.step action else none)
        .initial).any fun client => client.pending == [("web_3", 2)] &&
          client.log.contains (.settled 0 (.transport "websocket closed")) := by
    decide +kernel
  obtain ⟨client, isRun, ends⟩ := (Option.any_eq_true _ _).mp ends
  rw [Bool.and_eq_true, beq_iff_eq, contains_iff_mem] at ends
  have reaches : (rpcMachine.guarded Admits).Reaches client :=
    Machine.Reaches.checkedRun (fun _ _ => of_decide_eq_true) (.start rfl) isRun
  exact ⟨client, reaches, ends.1, ends.2, rpc_correlated reaches⟩

end PiRelay.Web
