import PiRelay.AgentStore.Database

/-! What the daemon takes out of a live session and writes to the rows. The
session is driven, its outputs are drained, and the batch is persisted in one
transaction; a runtime whose batch is not persisted is dropped. -/
namespace PiRelay.Runtime

open AgentVocab AgentCore Session Store

structure RuntimeSession where
  session : AgentSession
  persistedActiveLeafId : Option EntryId

def agentInputFromQueuedPriority (priority : InputPriority) (content : QueuedInputContent) :
    AgentInput :=
  match content with
  | .userMessage message =>
    match priority with
    | .steer => .steer { message }
    | .followUp => .followUp { message }
  | .daemonToolObservation observation => .daemonObservation observation

def appendedIds (events : List SessionEvent) : List EntryId :=
  events.filterMap fun
    | .transcriptItemAppended entryId _ => some entryId
    | _ => none

structure RuntimeOutputs where
  entries : List TranscriptStorageNode
  events : List SessionEvent
  actions : List SessionAction
  activeLeafId : Option EntryId
  runtime : RuntimeSession

def collectRuntimeOutputs (runtime : RuntimeSession) (stamps : Nat → EntryStamp) : RuntimeOutputs :=
  let session := runtime.session.drive stamps
  let (events, session) := session.drainEvents
  let (actions, session) := session.drainActions
  { entries := (appendedIds events).filterMap session.transcriptStore.getEntry
    events := events
    actions := actions
    activeLeafId := session.transcriptStore.activeLeafId
    runtime := { runtime with session } }

/-- Add the replay to the last assistant entry; none when there is no such entry.
The entries are copies, so the store of the session does not see it. -/
def extendLastAssistant (providerReplay : List ProviderReplayItem) :
    List TranscriptStorageNode → Option (List TranscriptStorageNode)
  | [] => none
  | entry :: rest =>
    match extendLastAssistant providerReplay rest with
    | some extended => some (entry :: extended)
    | none =>
      match entry.item with
      | .assistantMessage _ =>
        some ({ entry with providerReplay := entry.providerReplay ++ providerReplay } :: rest)
      | _ => none

def attachProviderReplay (entries : List TranscriptStorageNode)
    (providerReplay : List ProviderReplayItem) : Option (List TranscriptStorageNode) :=
  if providerReplay.isEmpty then some entries else extendLastAssistant providerReplay entries

/-- How the output transaction ends: the database takes it, or refuses it, or the
task dies within it. -/
inductive CommitOutcome where
  | committed
  | refused
  | panicked

inductive PersistResult where
  /-- The replay had no assistant entry to go to. The runtime is kept. -/
  | invalidProviderOutput (runtime : RuntimeSession)
  /-- The task died after the outputs were drained. The runtime is kept. -/
  | panicked (runtime : RuntimeSession)
  /-- The transaction failed. The runtime is dropped. -/
  | failed
  | persisted (db : Database) (runtime : RuntimeSession) (dispatches : List PersistedAction)

/-- The batch of the collected outputs, with the replay attached to its entries. -/
def outputBatch (outputs : RuntimeOutputs) (entries : List TranscriptStorageNode)
    (actionUpdate : Option ActionUpdate) (consumedInput : Option RowId) : OutputBatch where
  entries := entries
  activeLeafId := outputs.activeLeafId
  activeLeafUnchanged := outputs.runtime.persistedActiveLeafId == outputs.activeLeafId
  sessionEvents := outputs.events
  actions := outputs.actions
  actionUpdate := actionUpdate
  consumedInput := consumedInput

def persistActiveOutputs (db : Database) (runtime : RuntimeSession)
    (actionUpdate : Option ActionUpdate) (consumedInput : Option RowId)
    (providerReplay : List ProviderReplayItem) (stamps : Nat → EntryStamp)
    (commit : CommitOutcome) : PersistResult :=
  let outputs := collectRuntimeOutputs runtime stamps
  match attachProviderReplay outputs.entries providerReplay with
  | none => .invalidProviderOutput outputs.runtime
  | some entries =>
    let batch := outputBatch outputs entries actionUpdate consumedInput
    if !batch.hasDurableObligations then .persisted db outputs.runtime []
    else
      match commit with
      | .panicked => .panicked outputs.runtime
      | .refused => .failed
      | .committed =>
        match db.persistOutputs batch with
        | none => .failed
        | some (db, dispatches) =>
          .persisted db
            { outputs.runtime with persistedActiveLeafId := outputs.activeLeafId } dispatches

end PiRelay.Runtime
