import PiRelay.AgentStore.ActiveBranch

/-! Turn cards. The rows of a branch, from its root, are folded into cards: a turn opens a
card, its end closes it, and a compaction that happened in a turn lets the card go on. -/
namespace PiRelay.Store

open AgentVocab Session List

/-- A stored entry with its place in the order of insertion. -/
structure TranscriptEntryRow where
  node : TranscriptStorageNode
  sequence : Int
deriving DecidableEq

inductive ItemType where
  | turnStarted
  | userMessage
  | assistantMessage
  | toolCallStarted
  | toolResult
  | turnFinished
  | compactionSummary
  | daemonToolObservation
deriving DecidableEq

def itemType : TranscriptItem → ItemType
  | .turnStarted _ => .turnStarted
  | .userMessage _ => .userMessage
  | .assistantMessage _ => .assistantMessage
  | .toolCallStarted _ _ => .toolCallStarted
  | .toolResult _ => .toolResult
  | .turnFinished _ _ => .turnFinished
  | .compactionSummary _ => .compactionSummary
  | .daemonToolObservation _ => .daemonToolObservation

/-- An entry as it is shown on a card. Its replay is left out. -/
structure TranscriptEntryRecord where
  id : EntryId
  parentId : Option EntryId
  timestampMs : Nat
  sequence : Int
  item : TranscriptItem

structure TurnCardRow where
  id : EntryId
  parentId : Option EntryId
  compactionSourceLeafId : Option EntryId
  timestampMs : Nat
  sequence : Int
  entry : Option TranscriptEntryRecord
  itemType : ItemType
  turnId : Option TurnId
  compactionTurnStartedAtMs : Option Nat
  outcome : Option TurnOutcome

def TurnCardRow.displayParentId (row : TurnCardRow) : Option EntryId :=
  match row.itemType with
  | .compactionSummary => row.compactionSourceLeafId
  | _ => row.parentId

def TurnCardRow.startsTurn (row : TurnCardRow) : Bool := row.itemType = .turnStarted

def itemOutcome : TranscriptItem → Option TurnOutcome
  | .turnFinished _ outcome => some outcome
  | _ => none

def itemSourceLeafId : TranscriptItem → Option EntryId
  | .compactionSummary summary => some summary.sourceLeafId
  | _ => none

def itemTurnStartedAtMs : TranscriptItem → Option Nat
  | .compactionSummary summary => summary.turnStartedAtMs
  | _ => none

variable (row : TranscriptEntryRow)

def entryRecord (item : TranscriptItem) : TranscriptEntryRecord where
  id := row.node.id
  parentId := row.node.parentId
  timestampMs := row.node.timestampMs
  sequence := row.sequence
  item := item

def rowEntry (bodyItem : Option TranscriptItem) : Except String (Option TranscriptEntryRecord) :=
  match itemType row.node.item, bodyItem with
  | .userMessage, some item | .assistantMessage, some item | .daemonToolObservation, some item =>
    .ok (some (entryRecord row item))
  | .userMessage, none => .error "turn-card row missing body item for user_message"
  | .daemonToolObservation, none =>
    .error "turn-card row missing body item for daemon_tool_observation"
  | _, _ => .ok none

def cardRow (entry : Option TranscriptEntryRecord) : TurnCardRow where
  id := row.node.id
  parentId := row.node.parentId
  compactionSourceLeafId := itemSourceLeafId row.node.item
  timestampMs := row.node.timestampMs
  sequence := row.sequence
  entry := entry
  itemType := itemType row.node.item
  turnId := row.node.item.turnId
  compactionTurnStartedAtMs := itemTurnStartedAtMs row.node.item
  outcome := itemOutcome row.node.item

def turnCardRow (bodyItem : Option TranscriptItem) : Except String TurnCardRow :=
  (rowEntry row bodyItem).map (cardRow row)

inductive TurnCardStatus where
  | «open»
  | completed

structure MutableTurnCard where
  turnId : Option TurnId
  startEntryId : Option EntryId := none
  boundaryEntryId : Option EntryId := none
  activeLeafId : EntryId
  startSequence : Int
  endSequence : Int
  startTimestampMs : Nat
  timestampMs : Nat
  userMessages : List TranscriptEntryRecord := []
  daemonObservations : List TranscriptEntryRecord := []
  assistantMessage : Option TranscriptEntryRecord := none
  summary : Option String := none
  status : TurnCardStatus := .open
  outcome : Option TurnOutcome := none

structure TurnCardRecord where
  id : EntryId
  turnId : Option TurnId
  status : TurnCardStatus
  outcome : Option TurnOutcome
  startEntryId : Option EntryId
  boundaryEntryId : Option EntryId
  activeLeafId : EntryId
  startSequence : Int
  endSequence : Int
  startTimestampMs : Nat
  timestampMs : Nat
  userMessages : List TranscriptEntryRecord
  daemonObservations : List TranscriptEntryRecord
  assistantMessage : Option TranscriptEntryRecord
  summary : Option String
  canResume : Bool

/-- Where a card takes its start from when it goes on after a compaction. -/
structure CompactionResumeAnchor where
  turnId : Option TurnId
  startTimestampMs : Option Nat
  startSequence : Option Int

def isShownMessage : TranscriptItem → Bool
  | .userMessage message => !message.replayedAfterCompaction
  | _ => false

def appendItem (card : MutableTurnCard) (row : TurnCardRow) : MutableTurnCard :=
  match row.itemType with
  | .userMessage =>
    { card with
      userMessages := card.userMessages ++ row.entry.toList.filter (isShownMessage ·.item) }
  | .assistantMessage => { card with assistantMessage := row.entry <|> card.assistantMessage }
  | .daemonToolObservation =>
    { card with daemonObservations := card.daemonObservations ++ row.entry.toList }
  | .turnFinished =>
    { card with
      turnId := row.turnId <|> card.turnId
      boundaryEntryId := some row.id
      status := .completed
      outcome := row.outcome }
  | .turnStarted =>
    { card with
      turnId := row.turnId <|> card.turnId
      startEntryId := card.startEntryId <|> some row.id }
  | .compactionSummary =>
    { card with
      turnId := row.turnId <|> card.turnId
      startTimestampMs := row.compactionTurnStartedAtMs.getD card.startTimestampMs }
  | .toolCallStarted | .toolResult => card

def appendEntryToTurnCard (card : MutableTurnCard) (row : TurnCardRow) : MutableTurnCard :=
  appendItem
    { card with
      activeLeafId := row.id
      endSequence := row.sequence
      timestampMs := row.timestampMs
      turnId := card.turnId <|> row.turnId } row

def finalizeTurnCard (card : MutableTurnCard) : TurnCardRecord where
  id := (card.boundaryEntryId <|> card.startEntryId).getD card.activeLeafId
  turnId := card.turnId
  status := card.status
  outcome := card.outcome
  startEntryId := card.startEntryId
  boundaryEntryId := card.boundaryEntryId
  activeLeafId := card.activeLeafId
  startSequence := card.startSequence
  endSequence := card.endSequence
  startTimestampMs := card.startTimestampMs
  timestampMs := card.timestampMs
  userMessages := card.userMessages
  daemonObservations := card.daemonObservations
  assistantMessage := card.assistantMessage
  summary := card.summary
  canResume := card.outcome = some .interrupted || card.outcome = some .crashed

def startedCard (row : TurnCardRow) : MutableTurnCard where
  turnId := row.turnId
  startEntryId := some row.id
  activeLeafId := row.id
  startSequence := row.sequence
  endSequence := row.sequence
  startTimestampMs := row.timestampMs
  timestampMs := row.timestampMs

/-- The card of entries that no turn on the branch has opened. -/
def resumedCard (anchor : Option CompactionResumeAnchor) (row : TurnCardRow) : MutableTurnCard where
  turnId := row.turnId <|> anchor.bind (·.turnId)
  activeLeafId := row.id
  startSequence := (anchor.bind (·.startSequence)).getD row.sequence
  endSequence := row.sequence
  startTimestampMs := (anchor.bind (·.startTimestampMs)).getD row.timestampMs
  timestampMs := row.timestampMs

/-- The cards that are closed, the one that is open, and the last compaction. -/
structure CardFold where
  cards : List TurnCardRecord := []
  current : Option MutableTurnCard := none
  anchor : Option CompactionResumeAnchor := none

namespace CardFold

variable (state : CardFold)

def closeOpenTurn : CardFold :=
  match state.current with
  | none => state
  | some card => { state with cards := state.cards ++ [finalizeTurnCard card], current := none }

def compact (row : TurnCardRow) : CardFold :=
  let anchor : CompactionResumeAnchor :=
    { turnId := row.turnId
      startTimestampMs := row.compactionTurnStartedAtMs
      startSequence := row.compactionTurnStartedAtMs.map fun _ => row.sequence }
  let state := { state with anchor := some anchor }
  match row.compactionTurnStartedAtMs with
  | none => state.closeOpenTurn
  | some _ => { state with current := state.current.map (appendEntryToTurnCard · row) }

def startTurn (row : TurnCardRow) : CardFold :=
  { state.closeOpenTurn with anchor := none, current := some (startedCard row) }

def append (row : TurnCardRow) : CardFold :=
  let turn := state.current.getD (resumedCard state.anchor row)
  { state with current := some (appendEntryToTurnCard turn row) }

def step (row : TurnCardRow) : CardFold :=
  match row.itemType with
  | .compactionSummary => state.compact row
  | .turnStarted => (state.startTurn row).append row
  | .turnFinished => (state.append row).closeOpenTurn
  | _ => state.append row

end CardFold

def turnCardsFromRows (rows : List TurnCardRow) : List TurnCardRecord :=
  (rows.foldl CardFold.step {}).closeOpenTurn.cards

namespace CardFold

variable {state : CardFold} {row : TurnCardRow}

/-- The state with more cards before its own. -/
def behind (cards : List TurnCardRecord) (state : CardFold) : CardFold :=
  { state with cards := cards ++ state.cards }

variable {earlier : List TurnCardRecord}

theorem closeOpenTurn_behind :
    (state.behind earlier).closeOpenTurn = state.closeOpenTurn.behind earlier := by
  cases hCurrent : state.current with
  | none | some => simp [closeOpenTurn, behind, hCurrent]

theorem append_behind : (state.behind earlier).append row = (state.append row).behind earlier := rfl

theorem startTurn_behind :
    (state.behind earlier).startTurn row = (state.startTurn row).behind earlier := by
  rw [startTurn, closeOpenTurn_behind]
  rfl

theorem compact_behind :
    (state.behind earlier).compact row = (state.compact row).behind earlier := by
  rw [compact, compact]
  split
  · rw [← closeOpenTurn_behind]
    rfl
  · rfl

theorem step_behind : (state.behind earlier).step row = (state.step row).behind earlier := by
  rw [step, step]
  split
  · exact compact_behind
  · rw [startTurn_behind, append_behind]
  · rw [append_behind, closeOpenTurn_behind]
  · exact append_behind

theorem foldl_behind (rows : List TurnCardRow) :
    rows.foldl step (state.behind earlier) = (rows.foldl step state).behind earlier := by
  induction rows generalizing state with
  | nil => rfl
  | cons _ _ ih => rw [foldl_cons, step_behind, ih, foldl_cons]

theorem step_of_startsTurn (starts : row.startsTurn) (state : CardFold) :
    state.step row = (({} : CardFold).step row).behind state.closeOpenTurn.cards := by
  have isStart := of_decide_eq_true starts
  simp [step, isStart, startTurn, append, behind, closeOpenTurn]

end CardFold

/-- Cards can be made on both sides of a start of a turn. -/
theorem turnCardsFromRows_append {older newer : List TurnCardRow}
    (cut : ∀ row ∈ newer.head?, row.startsTurn) :
    turnCardsFromRows (older ++ newer) = turnCardsFromRows older ++ turnCardsFromRows newer := by
  cases newer with
  | nil => simp [turnCardsFromRows, CardFold.closeOpenTurn]
  | cons row =>
    rw [turnCardsFromRows, foldl_append, foldl_cons,
      CardFold.step_of_startsTurn (cut row rfl), CardFold.foldl_behind,
      CardFold.closeOpenTurn_behind]
    rfl

end PiRelay.Store
