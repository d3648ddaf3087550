import PiRelay.AgentSession.ModelContext

/-! The transcript forest of a session and its active leaf. Entries are kept in
insertion order; looking one up finds the last entry inserted under its id, as in
a map. The id and the time of a new entry come from outside. -/
namespace PiRelay.Session

open AgentVocab

abbrev EntryId := String

structure TranscriptStorageNode where
  id : EntryId
  parentId : Option EntryId
  timestampMs : Nat
  item : TranscriptItem
  providerReplay : List ProviderReplayItem
deriving DecidableEq

def TranscriptStorageNode.contextEntry (entry : TranscriptStorageNode) : ModelContextEntry where
  item := entry.item
  providerReplay := entry.providerReplay

/-- What a new entry draws from the outside: a random id and the clock. -/
structure EntryStamp where
  id : EntryId
  timestampMs : Nat

inductive TranscriptStoreError where
  | entryNotFound
  | notTurnBoundary
  | duplicateEntry
  | missingParent
deriving DecidableEq

structure TranscriptStore where
  nodes : List TranscriptStorageNode := []
  activeLeafId : Option EntryId := none
deriving DecidableEq

namespace TranscriptStore

variable (store : TranscriptStore)

def getEntry (id : EntryId) : Option TranscriptStorageNode :=
  store.nodes.reverse.find? (·.id == id)

def containsEntry (id : EntryId) : Bool := (store.getEntry id).isSome

/-- All entries in append order. -/
def entries : List TranscriptStorageNode :=
  (store.nodes.map (·.id)).filterMap store.getEntry

def isTurnBoundaryAt : Option EntryId → Bool
  | none => true
  | some id =>
    match store.getEntry id with
    | none => false
    | some entry => entry.item.isTurnBoundary

def isTurnBoundary : Bool := store.isTurnBoundaryAt store.activeLeafId

def appendEntry (entry : TranscriptStorageNode) : TranscriptStore where
  nodes := store.nodes ++ [entry]
  activeLeafId := some entry.id

def appendItem (item : TranscriptItem)
    (providerReplay : List ProviderReplayItem) (stamp : EntryStamp) : TranscriptStore :=
  store.appendEntry
    { id := stamp.id
      parentId := store.activeLeafId
      timestampMs := stamp.timestampMs
      item := item
      providerReplay := providerReplay }

def appendTranscriptItems (store : TranscriptStore) : List TranscriptItem → (Nat → EntryStamp) →
    TranscriptStore
  | [], _ => store
  | item :: rest, stamps =>
    (store.appendItem item [] (stamps 0)).appendTranscriptItems rest fun draw => stamps (draw + 1)

def setActiveLeafToEntry (entryId : EntryId) : Except TranscriptStoreError TranscriptStore :=
  if store.containsEntry entryId then .ok { store with activeLeafId := some entryId }
  else .error .entryNotFound

/-- The walk to the root. In a forest a path visits an entry at most once, so the
number of entries bounds it. -/
def walkToRoot (store : TranscriptStore) : Nat → Option EntryId → List TranscriptStorageNode
  | 0, _ => []
  | _ + 1, none => []
  | fuel + 1, some id =>
    match store.getEntry id with
    | none => []
    | some entry => entry :: store.walkToRoot fuel entry.parentId

def pathEntries (entryId : Option EntryId) : List TranscriptStorageNode :=
  (store.walkToRoot store.nodes.length entryId).reverse

def modelContext : ModelContext :=
  .fromEntries ((store.pathEntries store.activeLeafId).map TranscriptStorageNode.contextEntry)

def fromStorageEntries (entries : List TranscriptStorageNode) (activeLeafId : Option EntryId) :
    Except TranscriptStoreError TranscriptStore :=
  let ids := entries.map (·.id)
  if ¬ ids.Nodup then .error .duplicateEntry
  else if ¬ entries.all (fun entry => entry.parentId.all fun parentId => ids.contains parentId) then
    .error .missingParent
  else if ¬ activeLeafId.all (fun leafId => ids.contains leafId) then .error .entryNotFound
  else .ok { nodes := entries, activeLeafId }

end TranscriptStore

end PiRelay.Session
