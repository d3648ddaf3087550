import PiRelay.AgentCore.ToolBatch

/-! Requests and the completions that answer them. A completion names its request
by the ids and, for a tool, by the call. The state says which requests it waits
for; every other completion leaves it as it is. -/
namespace PiRelay.AgentCore

open AgentVocab List

structure CompletionToolTarget where
  id : ToolCallId
  name : String
deriving DecidableEq

/-- The identity of a request, as a completion has to repeat it. -/
structure CompletionTarget where
  actionId : ActionId
  turnId : TurnId
  tool : Option CompletionToolTarget
deriving DecidableEq

def CompletionTarget.fromCoreAction : AgentAction → Option CompletionTarget
  | .requestModel actionId turnId => some { actionId, turnId, tool := none }
  | .requestTool actionId turnId toolCall =>
    some { actionId, turnId, tool := some { id := toolCall.id, name := toolCall.toolName } }
  | .cancelTurn _ => none

/-- The request a completion claims to answer. -/
def AgentEvent.target : AgentEvent → Option CompletionTarget
  | .modelCompleted actionId turnId _ | .modelFailed actionId turnId _ =>
    some { actionId, turnId, tool := none }
  | .toolCompleted actionId turnId result =>
    some { actionId, turnId, tool := some { id := result.toolCallId, name := result.toolName } }
  | _ => none

def RunningTool.named (tool : RunningTool) : CompletionToolTarget where
  id := tool.call.id
  name := tool.call.toolName

def RunningTool.target (turnId : TurnId) (tool : RunningTool) : CompletionTarget where
  actionId := tool.actionId
  turnId := turnId
  tool := some tool.named

def openTools (tools : List RunningTool) (nextResultIndex : Nat) : List RunningTool :=
  (tools.drop nextResultIndex).filter (!·.hasResult)

def AgentState.waitsFor : AgentState → List CompletionTarget
  | .idle | .readyToContinue _ => []
  | .runningModel turnId actionId => [{ actionId, turnId, tool := none }]
  | .runningTools turnId tools nextResultIndex =>
    (openTools tools nextResultIndex).map (RunningTool.target turnId)

/-- The completions a state acts on. Of several tools under one name the first is
the only one that counts. -/
def AgentState.ActsOn (target : CompletionTarget) : AgentState → Prop
  | .idle | .readyToContinue _ => False
  | .runningModel turnId actionId => target = { actionId, turnId, tool := none }
  | .runningTools turnId tools nextResultIndex =>
    ∃ position tool, tools.findIdx? (fun tool => some tool.named = target.tool) = some position ∧
      tools[position]? = some tool ∧ tool.target turnId = target ∧
      nextResultIndex ≤ position ∧ tool.result = none

section Targets

variable {event : AgentEvent} {turnId : TurnId} {actionId : ActionId} {next : ActionId}

theorem AgentEvent.isCompletion_iff_target : event.isCompletion ↔ event.target.isSome := by
  cases event <;> simp [isCompletion, target]

theorem AgentEvent.target_eq_model (hTarget : event.target = some { actionId, turnId, tool := none }) :
    (∃ assistant, event = .modelCompleted actionId turnId assistant) ∨
      ∃ error, event = .modelFailed actionId turnId error := by
  cases event with
  | modelCompleted _ _ assistant =>
    simp only [target, Option.some.injEq, CompletionTarget.mk.injEq, and_true] at hTarget
    exact .inl ⟨assistant, by rw [hTarget.1, hTarget.2]⟩
  | modelFailed _ _ error =>
    simp only [target, Option.some.injEq, CompletionTarget.mk.injEq, and_true] at hTarget
    exact .inr ⟨error, by rw [hTarget.1, hTarget.2]⟩
  | _ => simp [target] at hTarget

theorem AgentEvent.target_of_slot {tools : List RunningTool} {position : Nat}
    {result : ToolResultMessage} {tool : RunningTool}
    (hSlot : event.slot turnId tools = some (position, result))
    (hTool : tools[position]? = some tool) : event.target = some (tool.target turnId) := by
  obtain ⟨_, hFound, rfl, hPosition⟩ := slot_eq_some hSlot
  cases hTool.symm.trans hFound
  obtain ⟨inRange, answered, _⟩ := findIdx?_eq_some_iff_getElem.mp hPosition
  have same : tools[position] = tool := by
    rw [getElem?_eq_getElem inRange] at hTool
    exact Option.some.inj hTool
  have hKey := RunningTool.answeredBy_iff.mp answered
  rw [same, ToolResultMessage.key, ToolCall.key, Prod.mk.injEq] at hKey
  simp [target, RunningTool.target, RunningTool.named, hKey.1, hKey.2]

theorem answeredBy_eq_named (result : ToolResultMessage) :
    (fun tool : RunningTool => tool.answeredBy result) = fun tool =>
      decide (some tool.named =
        some ({ id := result.toolCallId, name := result.toolName } : CompletionToolTarget)) := by
  funext tool
  rw [Bool.eq_iff_iff, RunningTool.answeredBy_iff, decide_eq_true_iff]
  simp only [ToolResultMessage.key, ToolCall.key, RunningTool.named, Prod.mk.injEq,
    Option.some.injEq, CompletionToolTarget.mk.injEq]
  exact and_congr eq_comm eq_comm

variable {target : CompletionTarget}

theorem AgentEvent.target_eq_tool {named : CompletionToolTarget}
    (hTarget : event.target = some target) (hTool : target.tool = some named) :
    ∃ result : ToolResultMessage, event = .toolCompleted target.actionId target.turnId result ∧
      named = { id := result.toolCallId, name := result.toolName } := by
  cases event with
  | toolCompleted _ _ result =>
    cases hTarget
    exact ⟨result, rfl, (Option.some.inj hTool).symm⟩
  | modelCompleted | modelFailed =>
    cases hTarget
    cases hTool
  | _ => cases hTarget

theorem AgentState.fires_of_actsOn {state : AgentState} (acts : state.ActsOn target)
    (hTarget : event.target = some target) (next : ActionId) :
    Fires next state event (state.step event next) := by
  cases state with
  | idle | readyToContinue => cases acts
  | runningModel turnId actionId =>
    obtain rfl : target = _ := acts
    rcases AgentEvent.target_eq_model hTarget with ⟨assistant, rfl⟩ | ⟨error, rfl⟩
    · by_cases noCalls : assistant.toolCalls = []
      · have fires : Fires next _ _ _ := .finish turnId actionId assistant noCalls
        simpa [step, onModelCompleted, isRunningModel, noCalls] using fires
      · have fires : Fires next _ _ _ := .startTools turnId actionId assistant noCalls
        simpa [step, onModelCompleted, isRunningModel, noCalls] using fires
    · have fires : Fires next _ _ _ := .fail turnId actionId error
      simpa [step, onModelFailed, isRunningModel] using fires
  | runningTools turnId tools index =>
    obtain ⟨position, tool, hPosition, hTool, rfl, behind, unanswered⟩ := acts
    obtain ⟨result, rfl, hNamed⟩ := AgentEvent.target_eq_tool hTarget rfl
    rw [RunningTool.target, hNamed, ← answeredBy_eq_named] at hPosition
    have fires : Fires next _ _ _ :=
      .recordResult turnId tools index position tool result hPosition hTool behind unanswered
    simpa [step, onToolCompleted, RunningTool.target, hPosition, hTool, unanswered,
      Nat.not_lt.mpr behind] using fires

/-- A completion fires if the state acts on its target, and only then. -/
theorem AgentState.step_completion (state : AgentState) (hTarget : event.target = some target)
    (next : ActionId) :
    (¬ state.ActsOn target ∧ state.step event next = emptyTransition state next) ∨
      (state.ActsOn target ∧ Fires next state event (state.step event next)) := by
  by_cases acts : state.ActsOn target
  · exact .inr ⟨acts, fires_of_actsOn acts hTarget next⟩
  · left
    refine ⟨acts, ?_⟩
    rcases step_cases state event next with ignored | fires
    · exact ignored
    · exfalso
      apply acts
      generalize state.step event next = transition at fires
      cases fires with
      | finish | startTools | fail => exact (Option.some.inj hTarget).symm
      | recordResult turnId tools _ position tool result hPosition hTool behind unanswered =>
        have hSlot : (AgentEvent.toolCompleted tool.actionId turnId result).slot turnId tools =
            some (position, result) := by
          simp [AgentEvent.slot, hPosition, hTool]
        have hSame := Option.some.inj ((AgentEvent.target_of_slot hSlot hTool).symm.trans hTarget)
        refine ⟨position, tool, ?_, hTool, hSame, behind, unanswered⟩
        rw [answeredBy_eq_named] at hPosition
        rw [← Option.some.inj hTarget]
        exact hPosition
      | _ => cases hTarget

theorem AgentState.mem_waitsFor_of_actsOn {state : AgentState} (acts : state.ActsOn target) :
    target ∈ state.waitsFor := by
  cases state with
  | idle | readyToContinue => cases acts
  | runningModel => exact mem_singleton.mpr acts
  | runningTools _ _ index =>
    obtain ⟨position, _, _, hTool, rfl, behind, unanswered⟩ := acts
    apply mem_map_of_mem
    rw [openTools, mem_filter]
    refine ⟨mem_of_getElem? (i := position - index) ?_, by
      simp [RunningTool.hasResult, unanswered]⟩
    rw [getElem?_drop, Nat.add_sub_cancel' behind, hTool]

end Targets

section Waiting

variable {turnId : TurnId} {tools : List RunningTool} {index position : Nat}

theorem openTools_advanced (inRange : index ≤ tools.length) :
    openTools (advancedTools tools index) (index + (takenTools tools index).length) =
      openTools tools index := by
  have recorded : (takenTools tools index).filter (!·.hasResult) = [] := by
    rw [filter_eq_nil_iff]
    intro tool hTool
    have full : tool.hasResult := List.all_eq_true.mp all_takeWhile tool hTool
    simp [full]
  have split : tools.drop index = takenTools tools index
      ++ tools.drop (index + (takenTools tools index).length) := by
    rw [← drop_drop, takenTools, Library.ReorderBuffer.drop_length_takeWhile,
      takeWhile_append_dropWhile]
  rw [openTools, advancedTools_drop tools inRange, openTools]
  conv_rhs => rw [split, filter_append, recorded, nil_append]

theorem openTools_store {tool : RunningTool} (hTool : tools[position]? = some tool)
    (behind : index ≤ position) (unanswered : tool.result = none) (result : ToolResultMessage) :
    ∃ front back, openTools tools index = front ++ tool :: back ∧
      openTools (tools.modify position (RunningTool.store result)) index = front ++ back := by
  obtain ⟨-, _⟩ := List.getElem?_eq_some_iff.mp hTool
  have hDrop : (tools.drop index)[position - index]? = some tool := by
    rw [getElem?_drop, Nat.add_sub_cancel' behind, hTool]
  obtain ⟨inDrop, hHere⟩ := List.getElem?_eq_some_iff.mp hDrop
  obtain ⟨front, found, back, hSplit, hLength, hModify⟩ :=
    exists_of_modify (RunningTool.store result) inDrop
  have hFound : found = tool := by
    rw [← hHere]
    simp [hSplit, ← hLength]
  subst hFound
  refine ⟨front.filter (!·.hasResult), back.filter (!·.hasResult), ?_, ?_⟩
  · rw [openTools, hSplit, filter_append, filter_cons_of_pos]
    simp [RunningTool.hasResult, unanswered]
  · rw [openTools, drop_modify_of_ge _ _ _ _ behind, hModify, filter_append, filter_cons_of_neg]
    simp [RunningTool.hasResult, RunningTool.store]

theorem AgentState.recordResult_waitsFor {result : ToolResultMessage} {next : ActionId}
    (inRange : index ≤ tools.length) :
    (recordResult turnId tools index position result next).state.waitsFor =
      (openTools (tools.modify position (RunningTool.store result)) index).map
        (RunningTool.target turnId) := by
  rw [recordResult_eq]
  have hLength : (tools.modify position (RunningTool.store result)).length = tools.length :=
    length_modify _ _ _
  rw [← hLength] at inRange ⊢
  simp only
  have advanced := openTools_advanced inRange
  split
  · rename_i finished
    rw [← advanced, openTools, finished, drop_eq_nil_of_le (by rw [advancedTools_length])]
    rfl
  · rw [waitsFor, advanced]

theorem AgentState.recordResult_actsOn {tool : RunningTool} {result : ToolResultMessage}
    {next : ActionId} {target : CompletionTarget}
    (hPosition : tools.findIdx? (·.answeredBy result) = some position)
    (hTool : tools[position]? = some tool) (behind : index ≤ position)
    (acts : (recordResult turnId tools index position result next).state.ActsOn target) :
    (AgentState.runningTools turnId tools index).ActsOn target ∧
      (AgentEvent.toolCompleted tool.actionId turnId result).target ≠ some target := by
  rw [recordResult_eq] at acts
  simp only at acts
  split at acts
  · cases acts
  · obtain ⟨other, found, hOther, hFound, hTarget, later, unanswered⟩ := acts
    have inRange : index ≤ (tools.modify position (RunningTool.store result)).length := by
      rw [length_modify]
      exact Nat.le_of_lt (Nat.lt_of_le_of_lt behind (List.getElem?_eq_some_iff.mp hTool).1)
    have sameFind : (advancedTools (tools.modify position (RunningTool.store result)) index).findIdx?
          (fun tool => some tool.named = target.tool) =
        tools.findIdx? (fun tool => some tool.named = target.tool) := by
      have viaNames : ∀ list : List RunningTool,
          list.findIdx? (fun tool => some tool.named = target.tool) =
            (list.map RunningTool.named).findIdx? (fun name => some name = target.tool) := by
        intro list
        rw [findIdx?_map]
        rfl
      rw [viaNames, viaNames, advancedTools_map _ RunningTool.named (fun _ => rfl),
        modify_store_map _ RunningTool.named result (fun _ => rfl)]
    have hStored : (tools.modify position (RunningTool.store result))[other]? = some found := by
      have hDrop := advancedTools_drop (tools.modify position (RunningTool.store result)) inRange
      have atOther := congrArg (fun list => list[other
        - (index + (takenTools (tools.modify position (RunningTool.store result)) index).length)]?)
        hDrop
      simp only [getElem?_drop, Nat.add_sub_cancel' later] at atOther
      rw [← atOther, hFound]
    have elsewhere : position ≠ other := by
      rintro rfl
      rw [getElem?_modify_eq, hTool] at hStored
      cases hStored
      cases unanswered
    rw [getElem?_modify_ne _ _ elsewhere] at hStored
    rw [sameFind] at hOther
    refine ⟨⟨other, found, hOther, hStored, hTarget,
      Nat.le_trans (Nat.le_add_right _ _) later, unanswered⟩, ?_⟩
    intro same
    rw [answeredBy_eq_named] at hPosition
    rw [← Option.some.inj same] at hOther
    exact elsewhere (Option.some.inj (hPosition.symm.trans hOther))

variable {next : ActionId} {state : AgentState} {event : AgentEvent} {transition : Transition}

theorem AgentState.Fires.waitsFor_completion (fires : Fires next state event transition)
    (completion : event.isCompletion) :
    ∃ front answered back, event.target = some answered ∧
      state.waitsFor = front ++ answered :: back ∧
      transition.state.waitsFor =
        front ++ back ++ transition.actions.filterMap CompletionTarget.fromCoreAction := by
  cases fires with
  | finish | fail => exact ⟨[], _, [], rfl, rfl, rfl⟩
  | startTools turnId _ assistant =>
    refine ⟨[], _, [], rfl, rfl, ?_⟩
    have allOpen : openTools (AgentCore.startTools turnId assistant.toolCalls next).tools 0 =
        (AgentCore.startTools turnId assistant.toolCalls next).tools := by
      rw [openTools, drop_zero, filter_eq_self]
      intro tool hTool
      simp [RunningTool.hasResult, startTools_result _ _ _ hTool]
    rw [waitsFor, allOpen, nil_append, startTools_actions, filterMap_map]
    rw [← filterMap_eq_map]
    rfl
  | recordResult turnId tools _ position tool result hPosition hTool behind unanswered =>
    obtain ⟨front, back, before, after⟩ := openTools_store hTool behind unanswered result
    have inRange := (List.getElem?_eq_some_iff.mp hTool).1
    have hSlot : (AgentEvent.toolCompleted tool.actionId turnId result).slot turnId tools =
        some (position, result) := by
      simp [AgentEvent.slot, hPosition, hTool]
    refine ⟨front.map (RunningTool.target turnId), tool.target turnId,
      back.map (RunningTool.target turnId), AgentEvent.target_of_slot hSlot hTool, ?_, ?_⟩
    · rw [waitsFor, before, map_append, map_cons]
    · rw [recordResult_waitsFor (Nat.le_of_lt (Nat.lt_of_le_of_lt behind inRange)), after,
        recordResult_eq, map_append]
      simp
  | _ => cases completion

theorem AgentState.Fires.waitsFor_input (fires : Fires next state event transition)
    (input : event.isCompletion = false) (noInterrupt : event ≠ .interrupt) :
    state.waitsFor = [] ∧ transition.state.waitsFor =
      transition.actions.filterMap CompletionTarget.fromCoreAction := by
  cases fires with
  | finish | fail | startTools | recordResult => cases input
  | interruptReady | interruptModel | interruptTools => exact absurd rfl noInterrupt
  | _ => exact ⟨rfl, rfl⟩

theorem AgentState.Fires.waitsFor_interrupt (fires : Fires next state .interrupt transition) :
    transition.state.waitsFor = [] ∧
      transition.actions.filterMap CompletionTarget.fromCoreAction = [] := by
  cases fires with
  | interruptReady | interruptModel | interruptTools => exact ⟨rfl, rfl⟩

theorem AgentState.step_ne_empty_iff (state : AgentState) {target : CompletionTarget}
    (hTarget : event.target = some target) (next : ActionId) :
    state.step event next ≠ emptyTransition state next ↔ state.ActsOn target := by
  constructor
  · intro effective
    rcases state.step_completion hTarget next with ⟨_, ignored⟩ | ⟨acts, _⟩
    · exact absurd ignored effective
    · exact acts
  · intro acts hEmpty
    have completion := AgentEvent.isCompletion_iff_target.mpr (by rw [hTarget]; rfl)
    obtain ⟨front, answered, back, _, before, after⟩ :=
      (fires_of_actsOn acts hTarget next).waitsFor_completion completion
    have sameLength := congrArg List.length (before.symm.trans
      ((congrArg (fun transition => transition.state.waitsFor) hEmpty).symm.trans after))
    rw [hEmpty] at sameLength
    simp [emptyTransition] at sameLength

end Waiting

section Distinct

/-- No two tools of the running batch share id and name. -/
def AgentState.DistinctCalls : AgentState → Prop
  | .runningTools _ tools _ => (tools.map (·.call.key)).Nodup
  | .idle | .runningModel _ _ | .readyToContinue _ => True

def AgentEvent.DistinctCalls : AgentEvent → Prop
  | .modelCompleted _ _ assistant => (assistant.toolCalls.map ToolCall.key).Nodup
  | _ => True

theorem AgentState.Fires.distinctCalls {next : ActionId} {state : AgentState} {event : AgentEvent}
    {transition : Transition} (fires : Fires next state event transition)
    (before : state.DistinctCalls) (message : event.DistinctCalls) :
    transition.state.DistinctCalls := by
  cases fires with
  | startTools =>
    rw [DistinctCalls, startTools_keys]
    exact message
  | recordResult _ tools index position _ result =>
    rw [recordResult_eq]
    simp only
    split
    · trivial
    · have sameKeys : (advancedTools (tools.modify position (RunningTool.store result)) index).map
          (·.call.key) = tools.map (·.call.key) := by
        rw [advancedTools_map _ _ (fun _ => rfl), modify_store_map _ _ _ (fun _ => rfl)]
      rw [DistinctCalls, sameKeys]
      exact before
  | _ => trivial

theorem AgentState.actsOn_iff_mem_waitsFor {state : AgentState} (distinct : state.DistinctCalls)
    (target : CompletionTarget) : state.ActsOn target ↔ target ∈ state.waitsFor := by
  refine ⟨mem_waitsFor_of_actsOn, ?_⟩
  intro waited
  cases state with
  | idle | readyToContinue => cases waited
  | runningModel => exact mem_singleton.mp waited
  | runningTools _ _ index =>
    obtain ⟨tool, hOpen, rfl⟩ := mem_map.mp waited
    obtain ⟨hDrop, hUnanswered⟩ := mem_filter.mp hOpen
    obtain ⟨offset, hOffset⟩ := getElem?_of_mem hDrop
    rw [getElem?_drop] at hOffset
    have unanswered : tool.result = none := by
      simpa [RunningTool.hasResult] using hUnanswered
    have hKey : (ToolResultMessage.crashed tool.call.id tool.call.toolName).key =
      tool.call.key := rfl
    have hFind := findIdx?_answeredBy distinct hOffset hKey
    rw [answeredBy_eq_named] at hFind
    exact ⟨index + offset, tool, hFind, hOffset, rfl, Nat.le_add_right _ _, unanswered⟩

end Distinct

end PiRelay.AgentCore
