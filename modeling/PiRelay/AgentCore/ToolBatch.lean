import PiRelay.AgentCore.Trace

/-! A running tool batch is a reorder buffer. Each call of the batch is a slot, a
completion that names a slot and carries its action id answers it, and the
results are recorded in call order. The index and the result fields of
`RunningTools` represent that buffer. -/
namespace PiRelay.AgentCore

open AgentVocab Option
open List hiding count
open Library.ReorderBuffer

/-- The slot of the batch a completion answers, and the result it brings. The
position is found by call id and tool name, and only then is the action id
compared. -/
def AgentEvent.slot (turnId : TurnId) (tools : List RunningTool) :
    AgentEvent → Option (Nat × ToolResultMessage)
  | .toolCompleted actionId resultTurnId result =>
    if resultTurnId = turnId then
      (tools.findIdx? (·.answeredBy result)).bind fun position =>
        if (tools[position]?.map RunningTool.actionId) = some actionId then
          some (position, result)
        else none
    else none
  | _ => none

/-- The tools and index of a running batch hold the buffer `slots`: the calls and
ids are those of the batch, the slots before the index have been released, and
the result fields from the index on are the rest of the buffer. -/
structure Holds (tools : List RunningTool) (slots : List (Option ToolResultMessage))
    (held : List RunningTool) (index : Nat) : Prop where
  identity : held.map RunningTool.cleared = tools.map RunningTool.cleared
  released : index = count slots
  results : (held.drop index).map RunningTool.result = slots.drop index
  length : slots.length = tools.length

section Slot

variable {turnId : TurnId} {tools : List RunningTool} {event : AgentEvent}

theorem AgentEvent.slot_map_cleared (event : AgentEvent) :
    event.slot turnId (tools.map RunningTool.cleared) = event.slot turnId tools := by
  cases event with
  | toolCompleted actionId _ result =>
    have sameTest : (fun tool : RunningTool => tool.answeredBy result) ∘ RunningTool.cleared =
        fun tool => tool.answeredBy result := rfl
    have sameIds : ∀ position : Nat,
        ((tools.map RunningTool.cleared)[position]?).map RunningTool.actionId =
          (tools[position]?).map RunningTool.actionId := by
      intro position
      rw [getElem?_map, Option.map_map]
      rfl
    simp only [slot, findIdx?_map, sameTest, sameIds]
  | _ => rfl

theorem AgentEvent.slot_eq_some {position : Nat} {result : ToolResultMessage}
    (hSlot : event.slot turnId tools = some (position, result)) :
    ∃ tool, tools[position]? = some tool ∧ event = .toolCompleted tool.actionId turnId result ∧
      tools.findIdx? (·.answeredBy result) = some position := by
  cases event with
  | toolCompleted =>
    rw [slot] at hSlot
    split at hSlot
    · rename_i sameTurn
      obtain ⟨_, hIndex, rest⟩ := bind_eq_some_iff.mp hSlot
      split at rest
      · rename_i owner
        obtain ⟨tool, hTool, rfl⟩ := map_eq_some_iff.mp owner
        cases rest
        exact ⟨tool, hTool, by rw [sameTurn], hIndex⟩
      · cases rest
    · cases hSlot
  | _ => cases hSlot

theorem AgentState.step_of_slot_none {index : Nat} (completion : event.isCompletion)
    (noSlot : event.slot turnId tools = none) (next : ActionId) :
    (AgentState.runningTools turnId tools index).step event next =
      emptyTransition (.runningTools turnId tools index) next := by
  rcases step_cases (.runningTools turnId tools index) event next with ignored | fires
  · exact ignored
  · generalize AgentState.step _ _ _ = transition at fires
    cases fires with
    | recordResult _ _ _ _ _ _ hPosition hTool => simp [AgentEvent.slot, hPosition, hTool] at noSlot
    | interruptTools => cases completion

theorem AgentState.step_of_slot_some {position : Nat} {result : ToolResultMessage}
    (hSlot : event.slot turnId tools = some (position, result)) (index : Nat) (next : ActionId) :
    ∃ tool, tools[position]? = some tool ∧
      (AgentState.runningTools turnId tools index).step event next =
        if position < index ∨ tool.result.isSome then
          emptyTransition (.runningTools turnId tools index) next
        else recordResult turnId tools index position result next := by
  obtain ⟨tool, hTool, rfl, hPosition⟩ := AgentEvent.slot_eq_some hSlot
  refine ⟨tool, hTool, ?_⟩
  simp only [step, onToolCompleted, hPosition, hTool, ne_eq, not_true_eq_false, ↓reduceIte,
    Bool.or_eq_true, decide_eq_true_eq]

end Slot

/-- The buffer after one more completion. -/
def answer (turnId : TurnId) (tools : List RunningTool) (slots : List (Option ToolResultMessage))
    (event : AgentEvent) : List (Option ToolResultMessage) :=
  putAll slots (event.slot turnId tools).toList

/-- What a batch does with a completion, told by the buffer before and after it:
the newly released results are emitted, and the batch is over when the buffer is
complete. -/
structure Advances (turnId : TurnId) (tools : List RunningTool)
    (before after : List (Option ToolResultMessage)) (next : ActionId)
    (transition : Transition) : Prop where
  items : (released before).map TranscriptItem.toolResult ++ transition.items =
    (released after).map .toolResult
  actions : transition.actions = []
  nextActionId : transition.nextActionId = next
  finished : Complete after → transition.state = .readyToContinue turnId
  running : ¬ Complete after → ∃ held index,
    transition.state = .runningTools turnId held index ∧ Holds tools after held index

namespace Holds

variable {turnId : TurnId} {tools held : List RunningTool}
  {slots : List (Option ToolResultMessage)} {index : Nat}

theorem held_length (holds : Holds tools slots held index) : held.length = slots.length := by
  have same := congrArg List.length holds.identity
  rw [length_map, length_map] at same
  rw [same, holds.length]

variable {position : Nat}

section

variable (holds : Holds tools slots held index)
include holds

theorem result_getElem? (behind : index ≤ position) :
    (held[position]?).map RunningTool.result = slots[position]? := by
  have same := congrArg (fun values => values[position - index]?) holds.results
  simp only [getElem?_map, getElem?_drop] at same
  rwa [Nat.add_sub_cancel' behind] at same

theorem slot_eq (event : AgentEvent) : event.slot turnId held = event.slot turnId tools := by
  rw [← event.slot_map_cleared, holds.identity, event.slot_map_cleared]

theorem ignored (hOpen : ¬ Complete slots) (next : ActionId) :
    Advances turnId tools slots slots next
      (emptyTransition (.runningTools turnId held index) next) where
  items := append_nil _
  actions := rfl
  nextActionId := rfl
  finished complete := absurd complete hOpen
  running _ := ⟨held, index, rfl, holds⟩

theorem store_results (behind : index ≤ position) (result : ToolResultMessage)
    (vacant : slots[position]? = some none) :
    ((held.modify position (RunningTool.store result)).drop index).map RunningTool.result =
      (put slots (position, result)).drop index := by
  rw [put_of_vacant vacant, drop_modify_of_ge _ _ _ _ behind,
    drop_modify_of_ge _ _ _ _ behind, ← holds.results]
  exact Library.map_modify _ _ _ RunningTool.result (fun _ => some result) (fun _ => rfl)

theorem record (behind : index ≤ position) (result : ToolResultMessage)
    (vacant : slots[position]? = some none) (next : ActionId) :
    Advances turnId tools slots (put slots (position, result)) next
      (AgentState.recordResult turnId held index position result next) := by
  have hResults := holds.store_results behind result vacant
  have hBehind : count slots ≤ position := holds.released ▸ behind
  rw [AgentState.recordResult_eq]
  have hIdentity := modify_store_map held RunningTool.cleared result (fun _ => rfl) position
  have hLength : (held.modify position (RunningTool.store result)).length = slots.length := by
    rw [length_modify, holds.held_length]
  generalize held.modify position (RunningTool.store result) = answered at hResults hIdentity hLength
  have hTaken : (takenTools answered index).map RunningTool.result =
      ((put slots (position, result)).drop index).takeWhile Option.isSome := by
    rw [← hResults, takeWhile_map]
    rfl
  have hCount : index + (takenTools answered index).length =
      count (put slots (position, result)) := by
    rw [count_put hBehind, ← holds.released, ← hTaken, length_map]
  have hItems : (takenTools answered index).filterMap RunningTool.result =
      (((put slots (position, result)).drop index).takeWhile Option.isSome).filterMap id := by
    rw [← hTaken, filterMap_map]
    rfl
  have hDone : Complete (put slots (position, result)) ↔
      index + (takenTools answered index).length = held.length := by
    rw [complete_iff, hCount, length_put, holds.held_length]
  refine ⟨?_, rfl, rfl, ?_, ?_⟩
  · rw [released_put hBehind, ← holds.released, map_append, ← hItems]
  · intro complete
    simp only [hDone.mp complete, ↓reduceIte]
  · intro incomplete
    simp only [mt hDone.mpr incomplete, ↓reduceIte]
    refine ⟨advancedTools answered index, _, rfl, ?_, hCount, ?_, ?_⟩
    · rw [advancedTools_map answered RunningTool.cleared (fun _ => rfl), hIdentity, holds.identity]
    · have hIndex : index ≤ answered.length := by
        rw [hLength, holds.released]
        exact count_le slots
      rw [advancedTools_drop answered hIndex, ← drop_drop, map_drop, hResults, drop_drop]
    · rw [length_put, holds.length]

/-- A completion fills the slot of its call and releases what is due. -/
theorem step (hOpen : ¬ Complete slots) {event : AgentEvent}
    (completion : event.isCompletion) (next : ActionId) :
    Advances turnId tools slots (answer turnId tools slots event) next
      ((AgentState.runningTools turnId held index).step event next) := by
  cases hSlot : event.slot turnId tools with
  | none =>
    have same : answer turnId tools slots event = slots := by
      simp [answer, hSlot, putAll]
    rw [same, AgentState.step_of_slot_none completion (holds.slot_eq event ▸ hSlot)]
    exact holds.ignored hOpen next
  | some found =>
    obtain ⟨position, result⟩ := found
    obtain ⟨tool, hTool, hStep⟩ := AgentState.step_of_slot_some
      (holds.slot_eq event ▸ hSlot) index next
    have hAnswer : answer turnId tools slots event = put slots (position, result) := by
      simp [answer, hSlot, putAll]
    rw [hStep, hAnswer]
    by_cases early : position < index
    · obtain ⟨old, hOld⟩ := isSome_of_lt_count (holds.released ▸ early)
      rw [if_pos (.inl early), put_of_answered hOld]
      exact holds.ignored hOpen next
    · have behind : index ≤ position := Nat.le_of_not_lt early
      have stored := holds.result_getElem? behind
      rw [hTool, map_some] at stored
      cases hResult : tool.result with
      | some =>
        rw [if_pos (.inr rfl), put_of_answered (stored ▸ congrArg some hResult)]
        exact holds.ignored hOpen next
      | none =>
        rw [if_neg (by simp [early])]
        exact holds.record behind result (stored ▸ congrArg some hResult) next

end

end Holds

end PiRelay.AgentCore
