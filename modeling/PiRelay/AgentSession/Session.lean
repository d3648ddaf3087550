import PiRelay.AgentSession.OutstandingActions

/-! The session shell around the core loop. It feeds the core, appends what the
core emits to the transcript store, and keeps the ledger of outstanding requests.
Operations that create entries take the stamps these entries draw. -/
namespace PiRelay.Session

open AgentVocab AgentCore

inductive SessionInput where
  | modelCompleted (actionId : ActionId) (turnId : TurnId) (assistant : AssistantMessage)
  | modelMaxOutputTokens (actionId : ActionId) (turnId : TurnId) (assistant : AssistantMessage)
      (providerReplay : List ProviderReplayItem) (error : String)

inductive SessionInputError where
  | modelCompletionRequiresSessionInput

inductive HistoryOperationError where
  | busy
  | store (error : TranscriptStoreError)
deriving DecidableEq

structure StoredSession where
  sessionId : String
  activeLeafId : Option EntryId
  entries : List TranscriptStorageNode

structure AgentSession where
  core : AgentCoreLoop
  transcriptStore : TranscriptStore
  outstandingActions : OutstandingActions
  actionOutbox : List SessionAction
  eventOutbox : List SessionEvent

namespace AgentSession

def new : AgentSession where
  core := .resumeAt 0 ActionId.first
  transcriptStore := {}
  outstandingActions := {}
  actionOutbox := []
  eventOutbox := []

variable (session : AgentSession)

def modelContext : ModelContext := session.transcriptStore.modelContext

def queueSessionAction (action : SessionAction) : AgentSession :=
  { session with
    eventOutbox := session.eventOutbox ++ [.actionRequested action]
    actionOutbox := session.actionOutbox ++ [action] }

def queueCoreAction (action : AgentAction) : AgentSession :=
  let session :=
    { session with outstandingActions := session.outstandingActions.trackRequest action }
  session.queueSessionAction <|
    match action with
    | .requestModel actionId turnId =>
      .requestModel actionId turnId session.modelContext session.transcriptStore.activeLeafId
    | .requestTool actionId turnId toolCall => .requestTool actionId turnId toolCall
    | .cancelTurn _ => .cancelSessionWork

def invalidateSessionWork : AgentSession :=
  let hadTrackedWork := !session.outstandingActions.isEmpty
  let hadActiveCoreWork := !session.core.isIdle
  let hadStartAction := session.actionOutbox.any SessionAction.isStart
  let hadExistingCancel := session.actionOutbox.any SessionAction.isCancelSessionWork
  let session :=
    { session with
      outstandingActions := session.outstandingActions.clear
      actionOutbox := session.actionOutbox.filter SessionAction.isCancelSessionWork }
  if (hadActiveCoreWork || hadTrackedWork || hadStartAction) && !hadExistingCancel then
    session.queueSessionAction .cancelSessionWork
  else session

variable (input : AgentInput)

def dropCompletedActionFromOutbox : AgentSession :=
  { session with actionOutbox := session.actionOutbox.eraseP (·.matchesCompletion input) }

/-- The events of freshly appended items, under the ids their entries drew. -/
def appendedEvents (items : List TranscriptItem) (stamps : Nat → EntryStamp) : List SessionEvent :=
  items.mapIdx fun draw item => .transcriptItemAppended (stamps draw).id item

variable (stamps : Nat → EntryStamp)

def drainCoreTranscriptItems : AgentSession :=
  let (items, core) := session.core.drainTranscriptItems
  let (events, outstandingActions) := session.outstandingActions.emitEventsAfterCoreAccepts items
  { session with
    core
    transcriptStore := session.transcriptStore.appendTranscriptItems items stamps
    outstandingActions
    eventOutbox := session.eventOutbox ++ appendedEvents items stamps ++ events }

def drainCoreAction (action : AgentAction) : AgentSession :=
  match action with
  | .requestModel _ _ | .requestTool _ _ _ => session.queueCoreAction action
  | .cancelTurn _ => session.invalidateSessionWork

def drainCoreActions : AgentSession :=
  let (actions, core) := session.core.drainActions
  actions.foldl drainCoreAction { session with core }

/-- Drive the core to quiescence and take over what it emitted. -/
def drive : AgentSession :=
  (({ session with core := session.core.drive }).drainCoreTranscriptItems stamps).drainCoreActions

def acceptAgentInput : Option AgentSession :=
  match input with
  | .interrupt => some session.invalidateSessionWork
  | .modelCompleted _ _ _ | .modelFailed _ _ _ | .toolCompleted _ _ _ =>
    match session.outstandingActions.acceptCompletion input with
    | none => none
    | some outstandingActions =>
      some (({ session with outstandingActions }).dropCompletedActionFromOutbox input)
  | .steer _ | .followUp _ | .daemonObservation _ => some session

def enqueueAccepted : AgentSession :=
  match session.acceptAgentInput input with
  | none => session
  | some accepted => { accepted with core := accepted.core.enqueueInput input }

def enqueueInput : Except SessionInputError AgentSession :=
  match input with
  | .modelCompleted _ _ _ => .error .modelCompletionRequiresSessionInput
  | input => .ok (session.enqueueAccepted input)

def appendWithEvent (item : TranscriptItem)
    (providerReplay : List ProviderReplayItem) (stamp : EntryStamp) : AgentSession :=
  { session with
    transcriptStore := session.transcriptStore.appendItem item providerReplay stamp
    eventOutbox := session.eventOutbox ++ [.transcriptItemAppended stamp.id item] }

/-- The turn is closed in the store. The core is not told. -/
def acceptModelMaxOutputTokens (actionId : ActionId) (turnId : TurnId)
    (assistant : AssistantMessage) (providerReplay : List ProviderReplayItem) (error : String)
    (stamps : Nat → EntryStamp) : AgentSession :=
  let input := AgentInput.modelCompleted actionId turnId assistant
  match session.outstandingActions.acceptCompletion input with
  | none => session
  | some outstandingActions =>
    let session := ({ session with outstandingActions }).dropCompletedActionFromOutbox input
    let session := session.appendWithEvent (.assistantMessage assistant) providerReplay (stamps 0)
    let session := session.appendWithEvent (.turnFinished turnId .crashed) [] (stamps 1)
    { session with
      eventOutbox := session.eventOutbox ++ [.actionFailed .model (toString actionId) error] }

def enqueueSessionInput (input : SessionInput) (stamps : Nat → EntryStamp) : AgentSession :=
  match input with
  | .modelCompleted actionId turnId assistant =>
    session.enqueueAccepted (.modelCompleted actionId turnId assistant)
  | .modelMaxOutputTokens actionId turnId assistant providerReplay error =>
    session.acceptModelMaxOutputTokens actionId turnId assistant providerReplay error stamps

def drainPendingInputs : List AgentInput × AgentSession :=
  let (inputs, core) := session.core.drainPendingInputs
  (inputs, { session with core })

def drainActions : List SessionAction × AgentSession :=
  (session.actionOutbox, { session with actionOutbox := [] })

def drainEvents : List SessionEvent × AgentSession :=
  (session.eventOutbox, { session with eventOutbox := [] })

def restoreQueuedUserInputs (inputs : List AgentInput) : AgentSession :=
  { session with core := inputs.foldl AgentCoreLoop.enqueueInput session.core }

def interruptLiveTurn : AgentSession :=
  let session := session.invalidateSessionWork
  if session.core.isIdle then session
  else ({ session with core := session.core.enqueueInput .interrupt }).drive stamps

def prepareForHistoryOperation : AgentSession × Except HistoryOperationError (List AgentInput) :=
  let (queuedUserInputs, session) := session.drainPendingInputs
  let session := session.interruptLiveTurn stamps
  if session.transcriptStore.isTurnBoundary then (session, .ok queuedUserInputs)
  else (session.restoreQueuedUserInputs queuedUserInputs, .error .busy)

def restoreCompactedRuntime (activeLeafId : EntryId) (turnId : TurnId)
    (actionId : ActionId) : AgentSession × Except HistoryOperationError Unit :=
  match session.transcriptStore.setActiveLeafToEntry activeLeafId with
  | .error error => (session, .error (.store error))
  | .ok transcriptStore =>
    let session :=
      { session with
        transcriptStore
        core := .resumeRunningModel turnId actionId
        outstandingActions := session.outstandingActions.clear
        actionOutbox := [] }
    let action :=
      SessionAction.requestModel actionId turnId session.modelContext (some activeLeafId)
    ({ session with outstandingActions := session.outstandingActions.trackSessionAction action },
      .ok ())

def resumeModelTurn (checkpointLeafId : EntryId) (turnId : TurnId)
    (actionId : ActionId) (stamps : Nat → EntryStamp) :
    AgentSession × Except HistoryOperationError Unit :=
  if !session.transcriptStore.containsEntry checkpointLeafId then
    (session, .error (.store .entryNotFound))
  else
    match session.prepareForHistoryOperation stamps with
    | (session, .error error) => (session, .error error)
    | (session, .ok queuedUserInputs) =>
      match session.transcriptStore.setActiveLeafToEntry checkpointLeafId with
      | .error error => (session.restoreQueuedUserInputs queuedUserInputs, .error (.store error))
      | .ok transcriptStore =>
        let session :=
          { session with
            transcriptStore
            core := .resumeRunningModel turnId actionId
            outstandingActions := session.outstandingActions.clear
            actionOutbox := session.actionOutbox.filter SessionAction.isCancelSessionWork }
        let action := SessionAction.requestModel actionId turnId session.modelContext
          (some checkpointLeafId)
        let session :=
          { session with
            outstandingActions := session.outstandingActions.trackSessionAction action }
        ((session.queueSessionAction action).restoreQueuedUserInputs queuedUserInputs, .ok ())

/-- Close the open turn of a stored path with the given outcome, down to a real
turn boundary. -/
def closeTranscriptStoreOpenTurnTo (outcome : TurnOutcome) (store : TranscriptStore)
    (stamps : Nat → EntryStamp) : Except HistoryOperationError TranscriptStore :=
  if store.isTurnBoundary then .ok store
  else
    let items := store.modelContext.items
    let recovered := (ModelContext.closeOpenTurnTo outcome (.fromTranscriptItems items)).items
    if recovered.length = items.length then .error (.store .notTurnBoundary)
    else
      let store := store.appendTranscriptItems (recovered.drop items.length) stamps
      if store.isTurnBoundary then .ok store else .error (.store .notTurnBoundary)

def closeTranscriptStoreOpenTurn := closeTranscriptStoreOpenTurnTo .crashed

def closeTranscriptStoreOpenTurnAsInterrupted := closeTranscriptStoreOpenTurnTo .interrupted

def resumedCore (context : ModelContext) : AgentCoreLoop :=
  match context.openTurnReadyToContinue with
  | some turnId => .resumeReadyToContinue turnId ActionId.first
  | none => .resumeAt context.lastTurnId ActionId.first

def fromTranscriptStore (store : TranscriptStore) (stamps : Nat → EntryStamp) :
    Except HistoryOperationError AgentSession :=
  match closeTranscriptStoreOpenTurn store stamps with
  | .error error => .error error
  | .ok transcriptStore =>
    .ok { new with core := resumedCore transcriptStore.modelContext, transcriptStore }

def fromStoredSession (stored : StoredSession) (stamps : Nat → EntryStamp) :
    Except HistoryOperationError AgentSession :=
  match TranscriptStore.fromStorageEntries stored.entries stored.activeLeafId with
  | .error error => .error (.store error)
  | .ok store => fromTranscriptStore store stamps

def fromStoredSessionInterrupted (stored : StoredSession) (stamps : Nat → EntryStamp) :
    Except HistoryOperationError AgentSession :=
  match TranscriptStore.fromStorageEntries stored.entries stored.activeLeafId with
  | .error error => .error (.store error)
  | .ok store =>
    match closeTranscriptStoreOpenTurnAsInterrupted store stamps with
    | .error error => .error error
    | .ok transcriptStore =>
      .ok
        { new with
          core := .resumeAt transcriptStore.modelContext.lastTurnId ActionId.first
          eventOutbox := (transcriptStore.entries.drop stored.entries.length).map
            fun entry => .transcriptItemAppended entry.id entry.item
          transcriptStore }

def fromStoredSessionPreservingOpenTurn (stored : StoredSession) :
    Except HistoryOperationError AgentSession :=
  match TranscriptStore.fromStorageEntries stored.entries stored.activeLeafId with
  | .error error => .error (.store error)
  | .ok transcriptStore =>
    .ok { new with core := resumedCore transcriptStore.modelContext, transcriptStore }

def toStoredSession (sessionId : String) : StoredSession where
  sessionId := sessionId
  activeLeafId := session.transcriptStore.activeLeafId
  entries := session.transcriptStore.entries

end AgentSession

end PiRelay.Session
