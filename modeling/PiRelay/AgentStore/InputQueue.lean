import PiRelay.AgentStore.SubagentControls
import PiRelay.Library.Ordered

/-! The input queue of a session as its clients see and edit it. Follow-ups wait in
the order of their positions and steers go before them. Every change of what is seen
raises the revision of the queue, and an edit may ask for the revision it has seen. -/
namespace PiRelay.Store

open AgentVocab AgentCore Session
open Library (inOrder)

/-- A session with the counters that its clients watch. -/
structure SessionQueue where
  session : ChildSession
  sessionRevision : Nat
  queueRevision : Nat
  transcriptRevision : Nat

def MailboxRow.isQueuedFollowUp (row : MailboxRow) : Bool :=
  row.status == .queued && row.priority == .followUp

def MailboxRow.promotedAt (row : MailboxRow) : Option Nat := row.origin.bind InputOrigin.promotedAt

variable (rows : List MailboxRow)

def inDispatchOrder : List MailboxRow :=
  inOrder MailboxRow.dispatchedBefore rows

/-- The query orders by position, time and id, which is the dispatch order of
follow-ups. -/
def queuedFollowUps : List MailboxRow :=
  inDispatchOrder (rows.filter MailboxRow.isQueuedFollowUp)

def queuedFollowUpIds : List String :=
  (queuedFollowUps rows).map MailboxRow.id

def MailboxRow.place (row : MailboxRow) (position : Nat) : MailboxRow :=
  { row with followUpPosition := some position, version := row.version + 1 }

/-- One statement for each id of a list sets the position of the row it admits. -/
def numberRows (admits : String × Nat → MailboxRow → Bool) (inputIds : List String)
    (rows : List MailboxRow) : List MailboxRow :=
  inputIds.zipIdx.foldl
    (fun rows numbered => rows.map fun row =>
      if admits numbered row then row.place numbered.2 else row)
    rows

def renumberFollowUps : List MailboxRow :=
  numberRows
    (fun numbered row => row.id == numbered.1 && row.followUpPosition != some numbered.2)
    (queuedFollowUpIds rows) rows

def placeFollowUps (inputIds : List String) (rows : List MailboxRow) : List MailboxRow :=
  numberRows (fun numbered row => ChildSession.isQueuedFollowUp numbered.1 row) inputIds rows

inductive SessionActivity where
  | running
  | queued
  | idle

def sessionActivity (running queued : Bool) : SessionActivity :=
  if running then .running else if queued then .queued else .idle

structure QueuedInputRecord where
  inputId : String
  priority : InputPriority
  status : MailboxStatus
  content : MailboxContent
  clientInputId : Option String
  createdAt : Nat
  promotedAt : Option Nat
  followUpPosition : Option Nat

def MailboxRow.record (row : MailboxRow) : QueuedInputRecord where
  inputId := row.id
  priority := row.priority
  status := row.status
  content := row.content
  clientInputId := row.clientInputId
  createdAt := row.createdAt
  promotedAt := row.promotedAt
  followUpPosition := row.followUpPosition

structure QueueState where
  sessionRevision : Nat
  queueRevision : Nat
  transcriptRevision : Nat
  activity : SessionActivity
  queuedInputs : List QueuedInputRecord

inductive QueueError where
  | delegationInputClosed (delegationId : Option String) (status : DelegationStatus)
  | expectedActiveLeafMismatch (current expected : Option EntryId)
  | notFound (inputId : String)
  | failed (message : String)

/-- A message to be queued and the leaf its sender has seen. -/
structure EnqueueUserInput where
  priority : InputPriority
  content : UserMessage
  clientInputId : Option String
  expectedActiveLeafId : Option (Option EntryId)

structure EnqueueUserInputResult where
  inputId : String
  queue : QueueState
  replayed : Bool
  status : MailboxStatus

structure PromoteQueuedInputResult where
  inputId : String
  priority : InputPriority
  status : MailboxStatus
  promoted : Bool
  queue : QueueState

/-- The answer to an edit of one input: whether it took effect, and why it did not. -/
structure EditQueuedInputResult where
  inputId : String
  edited : Bool
  reason : Option String
  priority : InputPriority
  status : MailboxStatus
  queue : QueueState

structure ReorderQueuedFollowUpsResult where
  reordered : Bool
  reason : Option String
  inputIds : List String
  queue : QueueState

/-- An input that is taken into a turn as it arrives. -/
structure AcceptedInput where
  priority : InputPriority
  content : UserMessage
  clientInputId : Option String
  inputId : String
  createdAt : Nat

def queueChanged : String := "queue_changed"

def notEditable : String := "not_editable"

namespace SessionQueue

def mailbox (queue : SessionQueue) : List MailboxRow := queue.session.mailbox

def withMailbox (queue : SessionQueue) (mailbox : List MailboxRow) : SessionQueue :=
  { queue with session := { queue.session with mailbox } }

variable (queue : SessionQueue)

@[simp] theorem withMailbox_mailbox (mailbox : List MailboxRow) :
    (queue.withMailbox mailbox).mailbox = mailbox :=
  rfl

variable (queue : SessionQueue)

def bumpRevisions (queueChanged transcriptChanged : Bool) : SessionQueue :=
  { queue with
    sessionRevision := queue.sessionRevision + 1
    queueRevision := queue.queueRevision + queueChanged.toNat
    transcriptRevision := queue.transcriptRevision + transcriptChanged.toNat }

@[simp] theorem bumpRevisions_mailbox (queueChanged transcriptChanged : Bool) :
    (queue.bumpRevisions queueChanged transcriptChanged).mailbox = queue.mailbox :=
  rfl

/-- The inputs that wait or are being consumed. -/
def activeInputs : List MailboxRow :=
  inDispatchOrder (queue.mailbox.filter MailboxRow.isActive)

def queueState : QueueState where
  sessionRevision := queue.sessionRevision
  queueRevision := queue.queueRevision
  transcriptRevision := queue.transcriptRevision
  activity :=
    sessionActivity (queue.session.actions.any MarkedAction.isUnfinished)
      !queue.activeInputs.isEmpty
  queuedInputs := queue.activeInputs.map MailboxRow.record

def revisionMismatch (expected : Option Int) : Bool :=
  expected.any (· != (queue.queueRevision : Int))

variable (inputId : String)

def findInput : Option MailboxRow :=
  queue.mailbox.find? (·.id == inputId)

def findClientInput (clientInputId : String) : Option MailboxRow :=
  queue.mailbox.find? (·.clientInputId == some clientInputId)

/-- The position behind the queued follow-ups; a missing position is not counted. -/
def nextFollowUpPosition : Nat :=
  ((queue.mailbox.filter MailboxRow.isQueuedFollowUp).filterMap
    MailboxRow.followUpPosition).foldl (fun last position => max last (position + 1)) 0

def userInputRow (request : EnqueueUserInput) (context : ControlContext) : MailboxRow where
  id := context.inputId
  priority := request.priority
  content := .input (.userMessage request.content)
  status := .queued
  clientInputId := request.clientInputId
  origin :=
    match request.priority with
    | .steer => some { promotedAt := some context.promotedAt }
    | .followUp => none
  followUpPosition :=
    match request.priority with
    | .steer => none
    | .followUp => some queue.nextFollowUpPosition
  createdAt := context.createdAt
  version := 0

def enqueueUserInput (request : EnqueueUserInput)
    (context : ControlContext) : Except QueueError (SessionQueue × EnqueueUserInputResult) :=
  if queue.session.delegationId.isSome && queue.session.delegation.status != .running then
    .error (.delegationInputClosed queue.session.delegationId queue.session.delegation.status)
  else
    match request.clientInputId.bind queue.findClientInput with
    | some row =>
      .ok (queue,
        { inputId := row.id, queue := queue.queueState, replayed := true, status := row.status })
    | none =>
      match request.expectedActiveLeafId.filter (· != queue.session.activeLeafId) with
      | some expected => .error (.expectedActiveLeafMismatch queue.session.activeLeafId expected)
      | none =>
        match context.routeRead with
        | .error message => .error (.failed message)
        | .ok () =>
          let row := queue.userInputRow request context
          let inserted :=
            (queue.withMailbox (queue.mailbox ++ [row])).bumpRevisions true false
          .ok (inserted,
            { inputId := row.id
              queue := inserted.queueState
              replayed := false
              status := .queued })

def enqueueScopedSubagentControl (request : ScopedSubagentControlRequest)
    (context : ControlContext) : Except String (Option (SessionQueue × EnqueuedControl)) :=
  match queue.session.enqueueScopedSubagentControl request context with
  | .error message => .error message
  | .ok none => .ok none
  | .ok (some (session, enqueued)) =>
    if enqueued.replayed then .ok (some (queue, enqueued))
    else .ok (some (({ queue with session }).bumpRevisions true false, enqueued))

/-- A steer that a parent sends; it may interrupt the child first. -/
def enqueueScopedSubagentSteer
    (parentSessionId delegationId subagentId : String) (content : UserMessage)
    (clientInputId : String) (controlInterrupt : Bool) (context : ControlContext) :
    Except String (Option (SessionQueue × EnqueuedControl)) :=
  queue.enqueueScopedSubagentControl
    { parentSessionId
      delegationId
      subagentId
      clientInputId
      kind := .steer
      content := some content
      interrupt := controlInterrupt } context

def enqueueScopedSubagentInterrupt
    (parentSessionId delegationId subagentId clientInputId : String) (context : ControlContext) :
    Except String (Option (SessionQueue × EnqueuedControl)) :=
  queue.enqueueScopedSubagentControl
    { parentSessionId
      delegationId
      subagentId
      clientInputId
      kind := .interrupt
      content := none
      interrupt := true } context

def observationRow (observation : DaemonToolObservation) (clientInputId : String)
    (context : ControlContext) : MailboxRow where
  id := context.inputId
  priority := .steer
  content := .input (.daemonToolObservation observation)
  status := .queued
  clientInputId := some clientInputId
  origin := some { promotedAt := some context.promotedAt }
  followUpPosition := none
  createdAt := context.createdAt
  version := 0

/-- An observation goes in as a steer; nothing happens where its id is taken. -/
def enqueueDelegationObservation (observation : DaemonToolObservation)
    (clientInputId : String) (context : ControlContext) : Except QueueError SessionQueue :=
  match context.routeRead with
  | .error message => .error (.failed message)
  | .ok () =>
    match queue.findClientInput clientInputId with
    | some _ => .ok queue
    | none =>
      let row := observationRow observation clientInputId context
      .ok ((queue.withMailbox (queue.mailbox ++ [row])).bumpRevisions true false)

def promoteQueuedInput (promotedAt : Nat) (routeRead : Except String Unit) :
    Except QueueError (SessionQueue × PromoteQueuedInputResult) :=
  match routeRead with
  | .error message => .error (.failed message)
  | .ok () =>
    if queue.mailbox.any (ChildSession.isQueuedFollowUp inputId) then
      let promoted := (queue.session.promoteQueuedInput inputId promotedAt).mailbox
      let renumbered :=
        (queue.withMailbox (renumberFollowUps promoted)).bumpRevisions true false
      .ok (renumbered,
        { inputId
          priority := .steer
          status := .queued
          promoted := true
          queue := renumbered.queueState })
    else
      match queue.findInput inputId with
      | none => .error (.notFound inputId)
      | some row =>
        .ok (queue,
          { inputId
            priority := row.priority
            status := row.status
            promoted := false
            queue := queue.queueState })

/-- The checks before an edit of one input, and the answer if it is not to be made. -/
def checkEdit (expected : Option Int) : Except QueueError (MailboxRow ⊕ EditQueuedInputResult) :=
  if queue.revisionMismatch expected then
    .ok (.inr
      { inputId
        edited := false
        reason := some queueChanged
        priority := .followUp
        status := .queued
        queue := queue.queueState })
  else
    match queue.findInput inputId with
    | none => .error (.notFound inputId)
    | some row =>
      if !row.isQueuedFollowUp then
        .ok (.inr
          { inputId
            edited := false
            reason := some notEditable
            priority := row.priority
            status := row.status
            queue := queue.queueState })
      else .ok (.inl row)

def updateQueuedInput (content : UserMessage)
    (expected : Option Int) : Except QueueError (SessionQueue × EditQueuedInputResult) :=
  match queue.checkEdit inputId expected with
  | .error error => .error error
  | .ok (.inr refused) => .ok (queue, refused)
  | .ok (.inl row) =>
    if row.content = .input (.userMessage content) then
      .ok (queue,
        { inputId
          edited := false
          reason := none
          priority := row.priority
          status := row.status
          queue := queue.queueState })
    else
      let updated := queue.mailbox.map fun row =>
        if ChildSession.isQueuedFollowUp inputId row then
          { row with
            content := .input (.userMessage content)
            origin := some (row.origin.getD {})
            version := row.version + 1 }
        else row
      let queue := (queue.withMailbox updated).bumpRevisions true false
      .ok (queue,
        { inputId
          edited := true
          reason := none
          priority := row.priority
          status := row.status
          queue := queue.queueState })

def cancelQueuedInput (expected : Option Int) :
    Except QueueError (SessionQueue × EditQueuedInputResult) :=
  match queue.checkEdit inputId expected with
  | .error error => .error error
  | .ok (.inr refused) => .ok (queue, refused)
  | .ok (.inl row) =>
    let cancelled := (queue.session.cancelQueuedInput inputId).mailbox
    let queue := (queue.withMailbox (renumberFollowUps cancelled)).bumpRevisions true false
    .ok (queue,
      { inputId
        edited := true
        reason := none
        priority := row.priority
        status := .cancelled
        queue := queue.queueState })

def reorderQueuedFollowUps (inputIds : List String)
    (expected : Option Int) : SessionQueue × ReorderQueuedFollowUpsResult :=
  let current := queuedFollowUpIds queue.mailbox
  let refused := fun reason : Option String =>
    (queue, { reordered := false, reason, inputIds := current, queue := queue.queueState })
  if queue.revisionMismatch expected then refused (some queueChanged)
  else if current = inputIds then refused none
  else if current.insertionSort (· ≤ ·) ≠ inputIds.insertionSort (· ≤ ·) then
    refused (some queueChanged)
  else
    let queue := (queue.withMailbox (placeFollowUps inputIds queue.mailbox)).bumpRevisions true false
    (queue, { reordered := true, reason := none, inputIds, queue := queue.queueState })

def resetConsuming (admits : MailboxRow → Bool) : SessionQueue :=
  match updateRows queue.mailbox admits fun row =>
      { row with
        status := .queued
        origin := some { row.origin.getD {} with claimId := none }
        version := row.version + 1 } with
  | none => queue
  | some rows => (queue.withMailbox (renumberFollowUps rows)).bumpRevisions true false

def resetAbandonedConsumingInputs : SessionQueue :=
  queue.resetConsuming fun row => row.status == .consuming

def resetConsumingInput (inputId claimId : String) : SessionQueue :=
  if claimId.isEmpty then queue
  else
    queue.resetConsuming fun row =>
      row.id == inputId && row.status == .consuming
        && row.origin.bind InputOrigin.claimId == some claimId

/-- Rows from before routes were recorded get the route of their session. -/
def freezeLegacyRoutes (routeless : List String) : SessionQueue :=
  queue.withMailbox (queue.mailbox.map fun row =>
    if row.isActive && routeless.contains row.id then { row with version := row.version + 1 }
    else row)

def markSubagentControlReady : Except String SessionQueue :=
  (queue.session.markSubagentControlReady inputId).map fun session =>
    ({ queue with session }).bumpRevisions true false

def skipStaleSubagentControlInterrupt : Except String SessionQueue :=
  (queue.session.skipStaleSubagentControlInterrupt inputId).map fun session =>
    ({ queue with session }).bumpRevisions true false

def applySubagentControlInterruptAtBoundary :
    Except String (SubagentBoundaryInterruptResult × SessionQueue) :=
  match queue.session.applySubagentControlInterruptAtBoundary inputId with
  | .error message => .error message
  | .ok (.notAtBoundary, _) => .ok (.notAtBoundary, queue)
  | .ok (result, session) => .ok (result, ({ queue with session }).bumpRevisions true false)

/-- The teardown of the delegation cancels whatever has not been consumed. -/
def cancelActiveInputs : SessionQueue :=
  if queue.mailbox.any MailboxRow.isActive then
    ({ queue with session := queue.session.cancelActiveDelegationChildInputs }).bumpRevisions
      true false
  else queue

def acceptedRow (input : AcceptedInput) (clientInputId : String) : MailboxRow where
  id := input.inputId
  priority := input.priority
  content := .input (.userMessage input.content)
  status := .consumed
  clientInputId := some clientInputId
  origin := none
  followUpPosition := none
  createdAt := input.createdAt
  version := 0

/-- An accepted input is recorded as consumed, and refused where its id is taken. -/
def recordAcceptedInput : Option AcceptedInput → Option SessionQueue
  | none => some queue
  | some input =>
    match input.clientInputId with
    | none => some queue
    | some clientInputId =>
      match queue.findClientInput clientInputId with
      | some _ => none
      | none => some (queue.withMailbox (queue.mailbox ++ [acceptedRow input clientInputId]))

/-- Whether an output transaction has anything that clients are told of. -/
def sessionChanged (batch : ChildOutputBatch) (accepted : Option AcceptedInput) : Bool :=
  batch.consumedInput.isSome || !batch.entries.isEmpty
    || queue.session.activeLeafId != batch.activeLeafId || accepted.isSome
    || batch.actionUpdate.isSome || !batch.actions.isEmpty || !batch.sessionEvents.isEmpty
    || batch.controlInterruptInputId.isSome

/-- All of the batch or none of it. The accepted input meets no other statement of the
transaction, so it is recorded last. -/
def persistOutputs (batch : ChildOutputBatch)
    (accepted : Option AcceptedInput) (nowMs : Nat) : Option SessionQueue :=
  (queue.session.persistOutputs batch nowMs).bind fun session =>
    (({ queue with session }).recordAcceptedInput accepted).map fun recorded : SessionQueue =>
      if queue.sessionChanged batch accepted then
        recorded.bumpRevisions batch.consumedInput.isSome !batch.entries.isEmpty
      else recorded

end SessionQueue

end PiRelay.Store
