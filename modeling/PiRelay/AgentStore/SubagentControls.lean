import Mathlib.Data.String.Basic
import PiRelay.AgentStore.DispatchLeases
import PiRelay.Library.Selection

/-! The controls a parent sends to a child of its delegation. A control is a row of
the child's mailbox whose origin says what it is aimed at and how far it has come.
While an interrupt is being applied its row holds up the whole mailbox. -/
namespace PiRelay.Store

open AgentVocab AgentCore Session
open Library (earliest)

inductive SubagentControlKind where
  | steer
  | interrupt
deriving DecidableEq

inductive SubagentControlPhase where
  | pendingInterrupt
  | interruptApplied
  | ready
  | cancelled
deriving DecidableEq

inductive ControlInterruptOutcome where
  | interrupted
  | alreadyBetweenTurns
  | generationAdvanced
deriving DecidableEq

inductive SubagentType where
  | full
  | readOnly
deriving DecidableEq

inductive MailboxContent where
  | input (content : QueuedInputContent)
  | subagentControl
deriving DecidableEq

inductive MailboxStatus where
  | queued
  | consuming
  | consumed
  | cancelled
deriving DecidableEq

/-- What a row tells about where it comes from; an absent field is a missing key. -/
structure InputOrigin where
  promotedAt : Option Nat := none
  claimId : Option String := none
  controlKind : Option SubagentControlKind := none
  delegationId : Option String := none
  parentSessionId : Option String := none
  subagentId : Option String := none
  controlInterrupt : Option Bool := none
  controlPhase : Option SubagentControlPhase := none
  controlInterrupted : Option Bool := none
  controlInterruptOutcome : Option ControlInterruptOutcome := none
  targetActiveLeafId : Option EntryId := none
  targetTurnId : Option TurnId := none
  targetActionAttemptIds : Option (List String) := none
  targetActionAttemptId : Option String := none
deriving DecidableEq

/-- A queued input. Every update of the row gives it a new version. -/
structure MailboxRow where
  id : String
  priority : InputPriority
  content : MailboxContent
  status : MailboxStatus
  clientInputId : Option String
  origin : Option InputOrigin
  followUpPosition : Option Nat
  createdAt : Nat
  version : Nat
deriving DecidableEq

structure Delegation where
  id : String
  parentSessionId : String
  status : DelegationStatus

/-- A child session with its delegation; the actions are listed as they were created. -/
structure ChildSession where
  id : String
  parentSessionId : Option String
  delegationId : Option String
  subagentType : Option SubagentType
  delegation : Delegation
  entries : List TranscriptStorageNode
  activeLeafId : Option EntryId
  actions : List MarkedAction
  mailbox : List MailboxRow

namespace MarkedAction

def isUnfinished (row : MarkedAction) : Bool := row.status.isUnfinished

def turnId (row : MarkedAction) : Option TurnId :=
  match row.action.payload with
  | .model _ | .tool _ => some row.action.turnId
  | .compaction _ => none

/-- A control ends the action and leaves its marker. -/
def interrupt (row : MarkedAction) : MarkedAction :=
  { row with action := row.action.setStatus .interrupted }

end MarkedAction

namespace MailboxRow

variable (row : MailboxRow)

def isActive : Bool := row.status == .queued || row.status == .consuming

def controlKind : Option SubagentControlKind :=
  row.origin.bind InputOrigin.controlKind

def controlPhase : Option SubagentControlPhase :=
  row.origin.bind InputOrigin.controlPhase

def controlInterrupt : Bool :=
  (row.origin.bind InputOrigin.controlInterrupt).getD false

def targetActiveLeafId : Option EntryId :=
  row.origin.bind InputOrigin.targetActiveLeafId

def targetTurnId : Option TurnId := row.origin.bind InputOrigin.targetTurnId

/-- The captured attempts; older rows name at most one. -/
def targetActionAttemptIds : List String :=
  match row.origin with
  | none => []
  | some origin => origin.targetActionAttemptIds.getD origin.targetActionAttemptId.toList

def isScopedControl : Bool := row.controlKind.isSome

def captured (action : MarkedAction) : Bool :=
  action.turnId == row.targetTurnId && row.targetActionAttemptIds.contains action.attemptId

def blocksMailbox : Bool :=
  row.isActive && row.controlInterrupt
    && (row.controlPhase == some .pendingInterrupt || row.controlPhase == some .interruptApplied)

def isHeld : Bool :=
  row.controlInterrupt && row.controlPhase.getD .pendingInterrupt != .ready

def createdBefore (row other : MailboxRow) : Bool :=
  decide (row.createdAt < other.createdAt)
    || row.createdAt == other.createdAt && decide (row.id < other.id)

/-- The order in which inputs are dispatched: steers by the time they became steers,
then follow-ups by their position. -/
def dispatchedBefore (row other : MailboxRow) : Bool :=
  match row.priority, other.priority with
  | .steer, .followUp => true
  | .followUp, .steer => false
  | .steer, .steer =>
    let promoted := fun steer : MailboxRow =>
      (steer.origin.bind InputOrigin.promotedAt).getD steer.createdAt
    decide (promoted row < promoted other)
      || promoted row == promoted other && row.createdBefore other
  | .followUp, .followUp =>
    match row.followUpPosition, other.followUpPosition with
    | some position, some otherPosition =>
      decide (position < otherPosition)
        || position == otherPosition && row.createdBefore other
    | some _, none => true
    | none, some _ => false
    | none, none => row.createdBefore other

def change (status : MailboxStatus) (edit : InputOrigin → InputOrigin) : MailboxRow :=
  { row with status, origin := row.origin.map edit, version := row.version + 1 }

def settledStatus : MailboxStatus :=
  if row.controlKind = some .interrupt then .consumed else row.status

/-- What the statements that move a control on require of its row. -/
def isControlIn (inputId : String) (phase : SubagentControlPhase) : Bool :=
  row.id == inputId && row.status == .queued && row.priority == .steer && row.isScopedControl
    && row.controlPhase == some phase

end MailboxRow

def updateRows (rows : List MailboxRow) (admits : MailboxRow → Bool)
    (change : MailboxRow → MailboxRow) : Option (List MailboxRow) :=
  if rows.any admits then some (rows.map fun row => if admits row then change row else row)
  else none

structure ScopedSubagentControlRequest where
  parentSessionId : String
  delegationId : String
  subagentId : String
  clientInputId : String
  kind : SubagentControlKind
  content : Option UserMessage
  interrupt : Bool

def ScopedSubagentControlRequest.mailboxContent (request : ScopedSubagentControlRequest) :
    MailboxContent :=
  match request.content with
  | some message => .input (.userMessage message)
  | none => .subagentControl

/-- What else is read and drawn when a control is sent. -/
structure ControlContext where
  reusedByOtherChild : Bool
  routeRead : Except String Unit
  inputId : String
  createdAt : Nat
  promotedAt : Nat

structure EnqueuedControl where
  inputId : String
  replayed : Bool
  status : MailboxStatus
  controlInterruptApplied : Bool
  delegationRunning : Bool
  controlPhase : SubagentControlPhase
  controlInterruptOutcome : Option ControlInterruptOutcome

def clientControlIdConflict : String :=
  "client_control_id_conflict: client_control_id was already used for a different subagent control"

namespace ChildSession

section

variable (child : ChildSession)

def unfinishedActions : List MarkedAction :=
  child.actions.filter MarkedAction.isUnfinished

def targetTurnId : Option TurnId :=
  child.unfinishedActions.getLast?.bind MarkedAction.turnId

def targetActionAttemptIds : List String :=
  (child.unfinishedActions.filter fun action => action.turnId == child.targetTurnId).map
    MarkedAction.attemptId

section

variable (request : ScopedSubagentControlRequest)

def bindsControl : Bool :=
  child.parentSessionId == some request.parentSessionId
    && child.delegationId == some request.delegationId && child.subagentType.isSome

def controlRow (context : ControlContext) : MailboxRow where
  id := context.inputId
  priority := .steer
  content := request.mailboxContent
  status := .queued
  clientInputId := some request.clientInputId
  origin := some
    { promotedAt := some context.promotedAt
      controlKind := some request.kind
      delegationId := some request.delegationId
      parentSessionId := some request.parentSessionId
      subagentId := some request.subagentId
      controlInterrupt := some request.interrupt
      controlPhase := some (if request.interrupt then .pendingInterrupt else .ready)
      targetActiveLeafId := child.activeLeafId
      targetTurnId := child.targetTurnId
      targetActionAttemptIds := some child.targetActionAttemptIds }
  followUpPosition := none
  createdAt := context.createdAt
  version := 0

/-- The answer to a request whose id is already taken. -/
def replayControl (row : MailboxRow) : Except String EnqueuedControl :=
  if row.priority != .steer || row.controlKind != some request.kind
      || row.origin.bind InputOrigin.delegationId != some request.delegationId
      || row.origin.bind InputOrigin.parentSessionId != some request.parentSessionId
      || row.origin.bind InputOrigin.subagentId != some request.subagentId
      || row.content != request.mailboxContent || row.controlInterrupt != request.interrupt then
    .error clientControlIdConflict
  else
    match row.controlPhase with
    | none => .error "scoped subagent control is missing its phase"
    | some phase =>
      .ok
        { inputId := row.id
          replayed := true
          status := row.status
          controlInterruptApplied := phase != .pendingInterrupt
          delegationRunning := child.delegation.status == .running
          controlPhase := phase
          controlInterruptOutcome := row.origin.bind InputOrigin.controlInterruptOutcome }

def enqueueScopedSubagentControl
    (context : ControlContext) : Except String (Option (ChildSession × EnqueuedControl)) :=
  if child.delegation.id != request.delegationId then .ok none
  else if child.delegation.parentSessionId != request.parentSessionId then .ok none
  else if context.reusedByOtherChild then .error clientControlIdConflict
  else if child.id != request.subagentId then .ok none
  else
    match context.routeRead with
    | .error message => .error message
    | .ok () =>
      if !child.bindsControl request then .ok none
      else
        match child.mailbox.find? (·.clientInputId == some request.clientInputId) with
        | some row =>
          match child.replayControl request row with
          | .error message => .error message
          | .ok replayed => .ok (some (child, replayed))
        | none =>
          if child.delegation.status != .running then .ok none
          else
            let row := child.controlRow request context
            .ok (some
              ({ child with mailbox := child.mailbox ++ [row] },
                { inputId := row.id
                  replayed := false
                  status := .queued
                  controlInterruptApplied := false
                  delegationRunning := true
                  controlPhase := if request.interrupt then .pendingInterrupt else .ready
                  controlInterruptOutcome := none }))

end

/-- The unfinished actions are captured ones, or there were none and the leaf has
not moved. -/
def targetIsCurrent (control : MailboxRow) : Bool :=
  if control.targetActionAttemptIds.isEmpty then
    child.activeLeafId == control.targetActiveLeafId && child.unfinishedActions.isEmpty
  else !child.unfinishedActions.isEmpty && child.unfinishedActions.all control.captured

def markSubagentControlReady (inputId : String) : Except String ChildSession :=
  match updateRows child.mailbox (·.isControlIn inputId .interruptApplied) fun row =>
      row.change row.settledStatus fun origin => { origin with controlPhase := some .ready } with
  | none => .error ("subagent control ready phase update affected 0 rows for " ++ inputId)
  | some mailbox => .ok { child with mailbox }

def settleStaleSubagentControl (inputId : String) : Except String ChildSession :=
  match updateRows child.mailbox (·.isControlIn inputId .pendingInterrupt) fun row =>
      row.change row.settledStatus fun origin =>
        { origin with
          controlPhase := some .ready
          controlInterrupted := some false
          controlInterruptOutcome := some .generationAdvanced } with
  | none => .error ("stale subagent control phase update affected 0 rows for " ++ inputId)
  | some mailbox => .ok { child with mailbox }

end

def skipStaleSubagentControlInterrupt := settleStaleSubagentControl

/-- The active leaf ends a turn or is the root of a compaction, or there is none. -/
def atBoundary (child : ChildSession) : Bool :=
  match child.activeLeafId with
  | none => true
  | some leafId => child.entries.any fun entry => entry.id == leafId && entry.item.isTurnBoundary

def recordInterrupt (child : ChildSession) (mailbox : List MailboxRow) (control : MailboxRow) :
    ChildSession :=
  { child with
    mailbox
    actions := child.actions.map fun action =>
      if action.isUnfinished && control.captured action then action.interrupt else action }

end ChildSession

inductive SubagentBoundaryInterruptResult where
  | notAtBoundary
  | applied (interrupted : Bool)
  | generationAdvanced

variable (child : ChildSession)

variable (inputId : String)

def ChildSession.applySubagentControlInterruptAtBoundary :
    Except String (SubagentBoundaryInterruptResult × ChildSession) :=
  if !child.atBoundary then .ok (.notAtBoundary, child)
  else
    match child.mailbox.find? fun row =>
        row.isControlIn inputId .pendingInterrupt && row.controlInterrupt with
    | none =>
      .error ("subagent boundary interrupt phase update found no pending row for " ++ inputId)
    | some control =>
      if !child.targetIsCurrent control then
        match child.settleStaleSubagentControl inputId with
        | .error message => .error message
        | .ok settled => .ok (.generationAdvanced, settled)
      else
        let interrupted := child.unfinishedActions.any control.captured
        match updateRows child.mailbox
            (fun row => row.id == inputId && row.status == .queued
              && row.controlPhase == some .pendingInterrupt) fun row =>
            row.change row.status fun origin =>
              { origin with
                controlPhase := some .interruptApplied
                controlInterrupted := some interrupted
                controlInterruptOutcome :=
                  some (if interrupted then .interrupted else .alreadyBetweenTurns) } with
        | none =>
          .error ("subagent boundary interrupt phase update affected 0 rows for " ++ inputId)
        | some mailbox => .ok (.applied interrupted, child.recordInterrupt mailbox control)

/-- An input as it was taken, for the transaction that is to consume it. -/
structure TakenInput where
  id : String
  content : MailboxContent
  priority : InputPriority
  claimId : String
  rowVersion : Nat

namespace ChildSession

def isTakeable (priority : Option InputPriority) (row : MailboxRow) : Bool :=
  row.status == .queued && row.controlKind != some .interrupt && !row.isHeld
    && !child.mailbox.any MailboxRow.blocksMailbox && priority.all (· == row.priority)

def takeNextQueuedInputMatching (priority : Option InputPriority) : Option TakenInput :=
  (earliest MailboxRow.dispatchedBefore (child.mailbox.filter (child.isTakeable priority))).map
    fun row =>
      { id := row.id
        content := row.content
        priority := row.priority
        claimId := ""
        rowVersion := row.version }

def takeNextQueuedInput : Option TakenInput :=
  child.takeNextQueuedInputMatching none

def takeNextQueuedSteerInput : Option TakenInput :=
  child.takeNextQueuedInputMatching (some .steer)

def dueInput : Option MailboxRow :=
  if child.mailbox.any MailboxRow.blocksMailbox then none
  else
    earliest MailboxRow.dispatchedBefore
      (child.mailbox.filter fun row => row.status == .queued && !row.isHeld)

def consumes (input : TakenInput) (row : MailboxRow) : Bool :=
  row.id == input.id
    && (row.status == .queued && row.version == input.rowVersion
        && child.dueInput.map MailboxRow.id == some row.id
      || row.status == .consuming && row.origin.bind InputOrigin.claimId == some input.claimId)

def consumeInput (input : TakenInput) : Option ChildSession :=
  (updateRows child.mailbox (child.consumes input) fun row =>
    { row with
      status := .consumed
      origin := some (row.origin.getD {})
      followUpPosition := none
      version := row.version + 1 }).map fun mailbox => { child with mailbox }

/-- The statement of an output transaction that applies a control: the turn was
closed as interrupted, and no other work has begun. -/
def applyControlInterrupt (priorLeafId : Option EntryId) : Option ChildSession :=
  let admits := fun row : MailboxRow =>
    row.isControlIn inputId .pendingInterrupt && row.controlInterrupt
      && (row.targetActiveLeafId == priorLeafId
        || !row.targetActionAttemptIds.isEmpty && child.unfinishedActions.any row.captured)
      && (child.entries.any fun entry =>
        some entry.id == child.activeLeafId
          && match entry.item with
            | .turnFinished _ .interrupted => true
            | _ => false)
      && child.unfinishedActions.all row.captured
  match child.mailbox.find? (·.id == inputId), updateRows child.mailbox admits fun row =>
      row.change row.status fun origin =>
        { origin with
          controlPhase := some .interruptApplied
          controlInterrupted := some true
          controlInterruptOutcome := some .interrupted } with
  | some control, some mailbox => some (child.recordInterrupt mailbox control)
  | _, _ => none

end ChildSession

/-- What an output transaction brings to a child. An action is a new row, or the
cancellation of all unfinished ones. -/
structure ChildOutputBatch where
  entries : List TranscriptStorageNode
  activeLeafId : Option EntryId
  sessionEvents : List SessionEvent
  actions : List (Option MarkedAction)
  actionUpdate : Option LeasedActionUpdate
  consumedInput : Option TakenInput
  controlInterruptInputId : Option String

namespace ChildSession

def completeAction (events : List SessionEvent) (nowMs : Nat) :
    Option LeasedActionUpdate → Option ChildSession
  | none => some child
  | some update =>
    if child.actions.any (·.canComplete update nowMs) then
      some
        { child with
          actions := child.actions.map fun row =>
            (row.completeActionTx (row.resolveUpdate update events nowMs) nowMs).getD row }
    else none

def recordAction (actions : List MarkedAction) : Option MarkedAction → List MarkedAction
  | none => actions.map MarkedAction.cancelUnfinishedSessionWork
  | some row => actions ++ [row]

def insertEntries (entries : List TranscriptStorageNode) : ChildSession :=
  { child with
    entries := (({ entries := child.entries } : Database).insertEntries entries).entries }

def completeOutputs (batch : ChildOutputBatch) (nowMs : Nat) : Option ChildSession :=
  if !({ entries := child.entries, activeLeafId := child.activeLeafId } : Database).extendsActiveLeaf
      batch.entries then none
  else
    let appended := { child.insertEntries batch.entries with activeLeafId := batch.activeLeafId }
    let consumed :=
      match batch.consumedInput with
      | none => some appended
      | some input => appended.consumeInput input
    consumed.bind (·.completeAction batch.sessionEvents nowMs batch.actionUpdate)

def persistOutputs (batch : ChildOutputBatch) (nowMs : Nat) : Option ChildSession :=
  (child.completeOutputs batch nowMs).bind fun completed =>
    let applied :=
      match batch.controlInterruptInputId with
      | none => some completed
      | some inputId => completed.applyControlInterrupt inputId child.activeLeafId
    applied.map fun applied =>
      { applied with actions := batch.actions.foldl recordAction applied.actions }

def resetAbandonedConsumingInputs : ChildSession :=
  { child with
    mailbox := child.mailbox.map fun row =>
      if row.status == .consuming then
        { row with
          status := .queued
          origin := some { row.origin.getD {} with claimId := none }
          version := row.version + 1 }
      else row }

/-- The teardown of a delegation cancels whatever its children have not consumed. -/
def cancelActiveDelegationChildInputs : ChildSession :=
  { child with
    mailbox := child.mailbox.map fun row =>
      if row.isActive then
        { row with
          status := .cancelled
          origin := some
            { row.origin.getD {} with
              controlPhase := some
                (if row.isScopedControl then .cancelled else row.controlPhase.getD .cancelled) }
          followUpPosition := none
          version := row.version + 1 }
      else row }

def beginDelegationTeardown : ChildSession :=
  if child.delegation.status == .running then
    { child with
      delegation := { child.delegation with status := .cancelling } }.cancelActiveDelegationChildInputs
  else child

/-- An ordinary input, if its id is new and the delegation still runs. -/
def enqueueUserInput (priority : InputPriority)
    (content : QueuedInputContent) (clientInputId : Option String) (context : ControlContext) :
    ChildSession :=
  if child.delegation.status != .running
      || clientInputId.isSome && child.mailbox.any (·.clientInputId == clientInputId) then child
  else
    { child with
      mailbox := child.mailbox ++
        [{ id := context.inputId
           priority
           content := .input content
           status := .queued
           clientInputId
           origin :=
             match priority with
             | .steer => some { promotedAt := some context.promotedAt }
             | .followUp => none
           followUpPosition :=
             match priority with
             | .steer => none
             | .followUp =>
               some (((child.mailbox.filter fun row =>
                 row.priority == .followUp && row.status == .queued).filterMap
                   MailboxRow.followUpPosition).foldl (fun last position => max last (position + 1))
                     0)
           createdAt := context.createdAt
           version := 0 }] }

def isQueuedFollowUp (row : MailboxRow) : Bool :=
  row.id == inputId && row.status == .queued && row.priority == .followUp

def promoteQueuedInput (promotedAt : Nat) : ChildSession :=
  { child with
    mailbox := child.mailbox.map fun row =>
      if isQueuedFollowUp inputId row then
        { row with
          priority := .steer
          origin := some { row.origin.getD {} with promotedAt := some promotedAt }
          followUpPosition := none
          version := row.version + 1 }
      else row }

def cancelQueuedInput : ChildSession :=
  { child with
    mailbox := child.mailbox.map fun row =>
      if isQueuedFollowUp inputId row then
        { row with
          status := .cancelled
          origin := some (row.origin.getD {})
          followUpPosition := none
          version := row.version + 1 }
      else row }

end ChildSession

end PiRelay.Store
