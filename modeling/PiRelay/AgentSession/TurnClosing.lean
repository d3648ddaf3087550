import PiRelay.AgentSession.StoredForest
import PiRelay.AgentSession.TurnBoundary

/-! Closing the turn that a stored path leaves open. Every call of the turn gets the
start and the result it lacks, and the turn gets its end. -/
namespace PiRelay.Session

open AgentVocab AgentCore ModelContext List

namespace ModelContext

theorem map_eraseP_key {α : Type} (keyOf : α → ToolCallId × String) (key : ToolCallId × String)
    {matched : α → Bool} (hMatched : ∀ value, matched value = (keyOf value == key))
    (values : List α) : (values.eraseP matched).map keyOf = (values.map keyOf).erase key := by
  induction values with
  | nil => rfl
  | cons value _ ih =>
    rw [map_cons, erase_cons, eraseP_cons, hMatched]
    cases keyOf value == key with
    | true => rfl
    | false => exact congrArg (keyOf value :: ·) ih

theorem any_key {α : Type} (keyOf : α → ToolCallId × String) (key : ToolCallId × String)
    {matched : α → Bool} (hMatched : ∀ value, matched value = (keyOf value == key))
    (values : List α) : values.any matched = (values.map keyOf).contains key := by
  induction values with
  | nil => rfl
  | cons _ _ ih => rw [any_cons, map_cons, contains_cons, ih, hMatched, BEq.comm]

variable (turnId : TurnId)

theorem completeToolCalls_cons (toolCall : ToolCall) (rest started : List ToolCall)
    (completed : List ToolResultMessage) :
    ∃ started' completed',
      started'.map ToolCall.key = (started.map ToolCall.key).erase toolCall.key ∧
      completed'.map ToolResultMessage.key =
        (completed.map ToolResultMessage.key).erase toolCall.key ∧
      completeToolCalls turnId (toolCall :: rest) started completed =
        (if (started.map ToolCall.key).contains toolCall.key then []
          else [TranscriptItem.toolCallStarted turnId toolCall])
        ++ (if (completed.map ToolResultMessage.key).contains toolCall.key then []
          else [.toolResult (ToolResultMessage.crashed toolCall.id toolCall.toolName)])
        ++ completeToolCalls turnId rest started' completed' := by
  have isStart : ∀ start : ToolCall,
      (start.id == toolCall.id && start.toolName == toolCall.toolName) =
        (start.key == toolCall.key) := fun _ => rfl
  have isResult : ∀ result : ToolResultMessage,
      (result.toolCallId == toolCall.id && result.toolName == toolCall.toolName) =
        (result.key == toolCall.key) := fun _ => rfl
  refine ⟨_, _, map_eraseP_key ToolCall.key toolCall.key isStart started,
    map_eraseP_key ToolResultMessage.key toolCall.key isResult completed, ?_⟩
  rw [← any_key ToolCall.key toolCall.key isStart, ← any_key ToolResultMessage.key toolCall.key isResult]
  rfl

theorem max_erase_count {keys calls : List (ToolCallId × String)} (key first : ToolCallId × String)
    {added : Nat} (ih : (keys.erase first).count key + added =
      max ((keys.erase first).count key) (calls.count key)) :
    keys.count key + ((if keys.contains first then [] else [first]).count key + added) =
      max (keys.count key) ((first :: calls).count key) := by
  rw [count_cons]
  by_cases has : keys.contains first
  · rw [if_pos has]
    rw [count_erase] at ih
    have mem : first ∈ keys := by simpa using has
    have some : first = key → 0 < keys.count key := fun same =>
      count_pos_iff.mpr (same ▸ mem)
    by_cases same : first = key
    · have positive := some same
      simp only [same, beq_self_eq_true, ↓reduceIte, count_nil] at ih ⊢
      omega
    · simp only [beq_eq_false_iff_ne.mpr same, Bool.false_eq_true, ↓reduceIte, count_nil,
        Nat.sub_zero] at ih ⊢
      omega
  · rw [if_neg has]
    have missing : first ∉ keys := by simpa using has
    rw [erase_of_not_mem missing] at ih
    have none : first = key → keys.count key = 0 := fun same =>
      count_eq_zero.mpr (same ▸ missing)
    by_cases same : first = key
    · have zero := none same
      simp only [same, count_singleton, beq_self_eq_true, ↓reduceIte] at ih ⊢
      omega
    · simp only [count_singleton, beq_eq_false_iff_ne.mpr same, Bool.false_eq_true,
        ↓reduceIte] at ih ⊢
      omega

theorem count_completed_starts (calls started : List ToolCall) (completed : List ToolResultMessage)
    (key : ToolCallId × String) :
    (started.map ToolCall.key).count key +
        ((startedToolCalls (completeToolCalls turnId calls started completed)).map
          ToolCall.key).count key =
      max ((started.map ToolCall.key).count key) ((calls.map ToolCall.key).count key) := by
  induction calls generalizing started completed with
  | nil => simp [completeToolCalls, startedToolCalls]
  | cons toolCall rest ih =>
    obtain ⟨started', completed', hStarted, _, hItems⟩ :=
      completeToolCalls_cons turnId toolCall rest started completed
    have later := ih started' completed'
    rw [hStarted] at later
    rw [map_cons, ← max_erase_count key toolCall.key later, hItems]
    rw [startedToolCalls, filterMap_append, filterMap_append, ← startedToolCalls,
      ← startedToolCalls, ← startedToolCalls, map_append, map_append, count_append,
      count_append]
    split <;> split <;> simp [startedToolCalls]

theorem count_completed_results (calls started : List ToolCall) (completed : List ToolResultMessage)
    (key : ToolCallId × String) :
    (completed.map ToolResultMessage.key).count key +
        ((toolResults (completeToolCalls turnId calls started completed)).map
          ToolResultMessage.key).count key =
      max ((completed.map ToolResultMessage.key).count key)
        ((calls.map ToolCall.key).count key) := by
  induction calls generalizing started completed with
  | nil => simp [completeToolCalls, toolResults]
  | cons toolCall rest ih =>
    obtain ⟨started', completed', _, hCompleted, hItems⟩ :=
      completeToolCalls_cons turnId toolCall rest started completed
    have later := ih started' completed'
    rw [hCompleted] at later
    rw [map_cons, ← max_erase_count key toolCall.key later, hItems]
    rw [toolResults, filterMap_append, filterMap_append, ← toolResults, ← toolResults,
      ← toolResults, map_append, map_append, count_append, count_append]
    split <;> split <;>
      simp [toolResults, ToolResultMessage.key, ToolResultMessage.crashed, ToolCall.key]

variable {turnId : TurnId} {items : List TranscriptItem} {start : Nat}

theorem mem_completeToolCalls {calls started : List ToolCall} {completed : List ToolResultMessage}
    {item : TranscriptItem} (mem : item ∈ completeToolCalls turnId calls started completed) :
    (∃ toolCall, item = .toolCallStarted turnId toolCall) ∨ ∃ result, item = .toolResult result := by
  induction calls generalizing started completed with
  | nil => cases mem
  | cons toolCall rest ih =>
    obtain ⟨started', completed', _, _, hItems⟩ :=
      completeToolCalls_cons turnId toolCall rest started completed
    rcases mem_append.mp mem with first | later
    · rcases mem_append.mp first with start | result
      · split at start
        · cases start
        · exact .inl ⟨toolCall, mem_singleton.mp start⟩
      · split at result
        · cases result
        · exact .inr ⟨_, mem_singleton.mp result⟩
    · exact ih later

theorem not_boundary_of_completed {calls started : List ToolCall}
    {completed : List ToolResultMessage} {item : TranscriptItem}
    (mem : item ∈ completeToolCalls turnId calls started completed) :
    item.isTurnBoundary = false := by
  rcases mem_completeToolCalls mem with ⟨toolCall, rfl⟩ | ⟨result, rfl⟩ <;> rfl

theorem openTurnScan_lt {sawOpenTail : Bool}
    (found : openTurnScan items sawOpenTail = some (turnId, start)) : start < items.length := by
  induction items generalizing sawOpenTail with
  | nil => cases found
  | cons _ _ ih =>
    rw [openTurnScan.eq_def] at found
    simp only at found
    split at found
    · cases found
      exact Nat.lt_succ_self _
    · cases found
    · split at found
      · cases found
        exact Nat.lt_succ_self _
      · cases found
    all_goals exact Nat.lt_succ_of_lt (ih found)

theorem openTurnStart_lt (found : openTurnStart items = some (turnId, start)) :
    start < items.length := by
  have within := openTurnScan_lt found
  rwa [length_reverse] at within

theorem openTurnStart_of_boundary (boundary : isTurnBoundaryItems items) :
    openTurnStart items = none := by
  rw [openTurnStart]
  rw [isTurnBoundaryItems] at boundary
  cases hLast : items.reverse with
  | nil => rfl
  | cons last =>
    have hItems : items.getLast? = some last := by
      rw [getLast?_eq_head?_reverse, hLast]
      rfl
    rw [hItems] at boundary
    cases last with
    | turnFinished | compactionSummary => rfl
    | _ => cases boundary

def closingItems (items : List TranscriptItem) (turnId : TurnId) (start : Nat)
    (outcome : TurnOutcome) : List TranscriptItem :=
  completeToolCalls turnId (assistantToolCalls (items.drop start))
      (startedToolCalls (items.drop start)) (toolResults (items.drop start))
    ++ [.turnFinished turnId outcome]

theorem closeOpenTurnItemsToBoundary_of_open (found : openTurnStart items = some (turnId, start))
    (outcome : TurnOutcome) :
    closeOpenTurnItemsToBoundary items outcome = items ++ closingItems items turnId start outcome := by
  have stillOpen : isTurnBoundaryItems (completeOpenToolCalls items start turnId) = false := by
    rw [isTurnBoundaryItems, completeOpenToolCalls, getLast?_append]
    cases hLast : (completeToolCalls turnId (assistantToolCalls (items.drop start))
        (startedToolCalls (items.drop start)) (toolResults (items.drop start))).getLast? with
    | some item => exact not_boundary_of_completed (mem_of_getLast? hLast)
    | none =>
      cases boundary : isTurnBoundaryItems items with
      | false => exact boundary
      | true =>
        have settled := openTurnStart_of_boundary boundary
        rw [found] at settled
        cases settled
  rw [closeOpenTurnItemsToBoundary, found]
  simp only [stillOpen, Bool.false_eq_true, ↓reduceIte]
  rw [completeOpenToolCalls, closingItems, append_assoc]

theorem closeOpenTurnItemsToBoundary_of_none (settled : openTurnStart items = none)
    (outcome : TurnOutcome) : closeOpenTurnItemsToBoundary items outcome = items := by
  rw [closeOpenTurnItemsToBoundary, settled]

end ModelContext

namespace TranscriptStore

namespace Restored

variable {store : TranscriptStore}

theorem isTurnBoundary_eq (restored : store.Restored) :
    store.isTurnBoundary = ModelContext.isTurnBoundaryItems store.modelContext.items := by
  rw [TranscriptStore.isTurnBoundary]
  cases hLeaf : store.activeLeafId with
  | none =>
    have nothing : store.modelContext.items = [] := by
      rw [modelContext, hLeaf, pathEntries]
      cases store.nodes.length <;> rfl
    rw [nothing]
    rfl
  | some leafId =>
    obtain ⟨entry, found⟩ := restored.getEntry_of_known (restored.leaf leafId hLeaf)
    obtain ⟨less, hFuel⟩ : ∃ less, store.nodes.length = less + 1 :=
      Nat.exists_eq_add_one.mpr (length_pos_of_mem (getEntry_eq_some found).1)
    have last : store.modelContext.items.getLast? = some entry.item := by
      rw [modelContext, hLeaf, pathEntries, hFuel, walkToRoot, found]
      simp [fromEntries, TranscriptStorageNode.contextEntry]
    rw [isTurnBoundaryAt, found, isTurnBoundaryItems, last]

end Restored

end TranscriptStore

namespace AgentSession

/-- An open turn is closed with the results and the end it lacks. -/
theorem closeTranscriptStoreOpenTurnTo_eq (outcome : TurnOutcome) (store : TranscriptStore)
    (stamps : Nat → EntryStamp) :
    closeTranscriptStoreOpenTurnTo outcome store stamps =
      if store.isTurnBoundary then .ok store
      else
        match ModelContext.openTurnStart store.modelContext.items with
        | none => .error (.store .notTurnBoundary)
        | some (turnId, start) =>
          .ok (store.appendTranscriptItems
            (ModelContext.closingItems store.modelContext.items turnId start outcome) stamps) := by
  rw [closeTranscriptStoreOpenTurnTo]
  cases store.isTurnBoundary with
  | true => rfl
  | false =>
    simp only [Bool.false_eq_true, ↓reduceIte]
    have recovered : (closeOpenTurnTo outcome
        (.fromTranscriptItems store.modelContext.items)).items =
        closeOpenTurnItemsToBoundary store.modelContext.items outcome := rfl
    rw [recovered]
    cases found : openTurnStart store.modelContext.items with
    | none =>
      rw [closeOpenTurnItemsToBoundary_of_none found]
      exact if_pos rfl
    | some open' =>
      obtain ⟨turnId, start⟩ := open'
      have closing : (closingItems store.modelContext.items turnId start
          outcome).getLast? = some (.turnFinished turnId outcome) := by
        simp [closingItems]
      have grows : (store.modelContext.items ++ closingItems
          store.modelContext.items turnId start outcome).length ≠
            store.modelContext.items.length := by
        simp [closingItems]
      rw [closeOpenTurnItemsToBoundary_of_open found, if_neg grows, drop_left,
        TranscriptStore.appendTranscriptItems_isTurnBoundary, endsAtBoundary, closing]
      exact if_pos rfl

end AgentSession

end PiRelay.Session
