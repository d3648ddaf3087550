import PiRelay.AgentCore.TurnGrammar
import PiRelay.AgentSession.LedgerBound
import PiRelay.AgentSession.StoredRecovery

/-! Every tool call of a closed turn has its result, and every result its call.
Turns are closed by the core, which answers the calls it has not recorded yet, and
by recovery, which looks for them in the transcript. An output cut off at its token
limit closes the turn as well, and answers nothing. -/
namespace PiRelay.Session

open AgentVocab AgentCore ModelContext ToolResultMessage List Option
open Library (Machine)

/-- The calls without a result after one more item. A result takes an earlier call
with its id and tool name, and a turn neither starts nor ends with a call open. -/
def scanItem (unanswered : List (ToolCallId × String)) :
    TranscriptItem → Option (List (ToolCallId × String))
  | .assistantMessage message => some (unanswered ++ message.toolCalls.map ToolCall.key)
  | .toolResult result =>
    if result.key ∈ unanswered then some (unanswered.erase result.key) else none
  | .turnStarted _ | .turnFinished _ _ | .compactionSummary _ =>
    if unanswered = [] then some [] else none
  | .userMessage _ | .daemonToolObservation _ | .toolCallStarted _ _ => some unanswered

/-- The calls that the items leave without a result; none where a result has no
call, or a call of a turn that is over has no result. -/
def unansweredCalls (unanswered : List (ToolCallId × String)) (items : List TranscriptItem) :
    Option (List (ToolCallId × String)) :=
  items.foldlM scanItem unanswered

section Scan

variable {unanswered left : List (ToolCallId × String)} {items first second : List TranscriptItem}

theorem unansweredCalls_append (unanswered : List (ToolCallId × String))
    (first second : List TranscriptItem) :
    unansweredCalls unanswered (first ++ second) =
      (unansweredCalls unanswered first).bind (unansweredCalls · second) := by
  rw [unansweredCalls, foldlM_append]
  rfl

theorem unansweredCalls_cons (unanswered : List (ToolCallId × String)) (item : TranscriptItem)
    (rest : List TranscriptItem) :
    unansweredCalls unanswered (item :: rest) =
      (scanItem unanswered item).bind (unansweredCalls · rest) := by
  rfl

theorem unansweredCalls_extend (scanned : unansweredCalls [] first = some unanswered)
    (more : unansweredCalls unanswered second = some left) :
    unansweredCalls [] (first ++ second) = some left := by
  rw [unansweredCalls_append, scanned]
  exact more

theorem count_calls_of_scanned (scanned : unansweredCalls unanswered items = some left)
    (key : ToolCallId × String) :
    unanswered.count key + callCount key items = resultCount key items + left.count key := by
  induction items generalizing unanswered with
  | nil =>
    cases scanned
    simp [callCount, resultCount, assistantToolCalls, toolResults]
  | cons item rest ih =>
    obtain ⟨middle, here, later⟩ := bind_eq_some_iff.mp scanned
    have counted := ih later
    have calls : callCount key (item :: rest) = callCount key [item] + callCount key rest := by
      simp [callCount, assistantToolCalls, count_append]
    have results : resultCount key (item :: rest) =
        resultCount key [item] + resultCount key rest := by
      rw [resultCount, toolResults, ← singleton_append, filterMap_append, map_append, count_append]
      rfl
    have step : unanswered.count key + callCount key [item] =
        resultCount key [item] + middle.count key := by
      cases item with
      | assistantMessage =>
        cases here
        simp [callCount, resultCount, assistantToolCalls, toolResults, count_append]
      | toolResult result =>
        rw [scanItem] at here
        split at here
        · rename_i mem
          cases here
          have split : unanswered.count key =
              (result.key :: unanswered.erase result.key).count key :=
            (perm_cons_erase mem).count_eq key
          rw [split, count_cons]
          simp [callCount, resultCount, assistantToolCalls, toolResults, count_cons]
          omega
        · cases here
      | turnStarted | turnFinished | compactionSummary =>
        rw [scanItem] at here
        split at here
        · rename_i settled
          cases here
          simp [settled, callCount, resultCount, assistantToolCalls, toolResults]
        · cases here
      | _ =>
        cases here
        simp [callCount, resultCount, assistantToolCalls, toolResults]
    omega

theorem unansweredCalls_answered
    (answers : ∀ item ∈ items, (∃ turnId toolCall, item = .toolCallStarted turnId toolCall) ∨
      ∃ result, item = .toolResult result)
    (perm : ((ModelContext.toolResults items).map ToolResultMessage.key).Perm unanswered) :
    unansweredCalls unanswered items = some [] := by
  induction items generalizing unanswered with
  | nil => rw [nil_perm.mp perm]; rfl
  | cons item rest ih =>
    have others := fun other mem => answers other (mem_cons_of_mem item mem)
    rw [unansweredCalls_cons]
    rcases answers item (.head _) with ⟨turnId, toolCall, rfl⟩ | ⟨result, rfl⟩
    · exact ih others perm
    · have named : (result.key :: (toolResults rest).map key).Perm
          unanswered := perm
      have mem := named.subset (.head _)
      rw [scanItem, if_pos mem]
      apply ih others
      have erased := named.erase result.key
      rw [erase_cons_head] at erased
      exact erased

theorem unansweredCalls_results {results : List ToolResultMessage} {rest : List (ToolCallId × String)}
    (hKeys : unanswered = results.map ToolResultMessage.key ++ rest) :
    unansweredCalls unanswered (results.map .toolResult) = some rest := by
  subst hKeys
  induction results with
  | nil => rfl
  | cons result others ih =>
    rw [map_cons, map_cons, unansweredCalls_cons, cons_append]
    have here : scanItem (result.key :: (others.map key ++ rest))
        (.toolResult result) = some (others.map key ++ rest) := by
      simp [scanItem]
    rw [here]
    exact ih

end Scan

/-- The calls of the running batch whose results are not recorded yet. -/
def awaitedCalls : AgentState → List (ToolCallId × String)
  | .runningTools _ tools index => (tools.drop index).map (·.call.key)
  | .idle | .runningModel _ _ | .readyToContinue _ => []

/-- A transition answers calls that were open, in their order. -/
theorem unansweredCalls_fires {next : ActionId} {state : AgentState} {event : AgentEvent}
    {transition : Transition} (fires : AgentState.Fires next state event transition)
    (keyed : KeyedTools state) :
    unansweredCalls (awaitedCalls state) transition.items =
      some (awaitedCalls transition.state) := by
  cases fires with
  | finish _ _ _ noCalls => simp [awaitedCalls, scanItem, noCalls, unansweredCalls]
  | startTools turnId _ assistant =>
    rw [unansweredCalls_cons]
    have started : ∀ keys, unansweredCalls keys
        (startTools turnId assistant.toolCalls next).items = some keys := by
      intro keys
      rw [startTools_items]
      generalize assistant.toolCalls = calls
      induction calls with
      | nil => rfl
      | cons _ _ ih => exact ih
    simp only [awaitedCalls, scanItem, bind_some, nil_append, drop_zero, started]
    rw [startTools_keys]
  | recordResult _ tools index position _ result hPosition =>
    rw [AgentState.recordResult_eq]
    have hKeyed := keyed_modify keyed hPosition
    have sameKeys : (tools.drop index).map (·.call.key) =
        ((tools.modify position (RunningTool.store result)).map (·.call.key)).drop index := by
      rw [map_drop, modify_store_map tools (·.call.key) result fun _ => rfl]
    rw [awaitedCalls, sameKeys]
    have sameLength := length_modify (RunningTool.store result) tools position
    generalize tools.modify position (RunningTool.store result) = answered at hKeyed sameLength
    have keysAfter : (advancedTools answered index).map (·.call.key) =
        answered.map (·.call.key) := advancedTools_map answered (·.call.key) (fun _ => rfl) index
    have taken : ((takenTools answered index).filterMap RunningTool.result).map key =
          ((answered.map (·.call.key)).drop index).take (takenTools answered index).length := by
      rw [takenTools_keys hKeyed index, map_take, map_drop, List.map_map]
      rfl
    have split : (answered.map (·.call.key)).drop index =
        ((takenTools answered index).filterMap RunningTool.result).map key
          ++ (answered.map (·.call.key)).drop
            (index + (takenTools answered index).length) := by
      rw [taken, ← drop_drop, take_append_drop]
    simp only
    rw [unansweredCalls_results split]
    split
    · rename_i finished
      have nothing : (answered.map (·.call.key)).drop
          (index + (takenTools answered index).length) = [] := by
        rw [drop_eq_nil_iff, length_map, sameLength]
        exact Nat.le_of_eq finished.symm
      rw [nothing]
      rfl
    · rw [awaitedCalls, map_drop, keysAfter]
  | interruptTools _ tools index =>
    have results : (tools.drop index).map (fun tool =>
        TranscriptItem.toolResult (AgentState.interruptedResult tool)) =
          ((tools.drop index).map AgentState.interruptedResult).map .toolResult := by
      rw [List.map_map]
      rfl
    have keys : (tools.drop index).map (·.call.key) =
        ((tools.drop index).map AgentState.interruptedResult).map key ++ [] := by
      rw [append_nil, List.map_map]
      apply map_congr_left
      intro tool mem
      exact (RunningTool.Keyed.interruptedResult_key (keyed tool (mem_of_mem_drop mem))).symm
    rw [awaitedCalls, unansweredCalls_append, results, unansweredCalls_results keys]
    rfl
  | _ => rfl

/-- The loop within a drive that began with these calls open. -/
structure Scanned (unanswered : List (ToolCallId × String)) (loop : AgentCoreLoop) : Prop where
  items : unansweredCalls unanswered loop.transcriptItemOutbox = some (awaitedCalls loop.state)
  keyed : KeyedTools loop.state

variable {unanswered : List (ToolCallId × String)} {items : List TranscriptItem} {turnId : TurnId}
    {start : Nat}

theorem Scanned.drive {loop : AgentCoreLoop} (scanned : Scanned unanswered loop) :
    Scanned unanswered loop.drive := by
  refine AgentCoreLoop.driveLoop.run_invariant (motive := Scanned unanswered) ?_ scanned
  intro current holds
  obtain ⟨transition, hOnce, rfl | ⟨_, _, fires⟩⟩ := current.driveOnce_cases
  · have hBody : (AgentCoreLoop.driveLoop.body current).1 = _ := hOnce
    rw [hBody]
    refine ⟨?_, holds.keyed⟩
    show unansweredCalls unanswered (current.transcriptItemOutbox ++ []) = _
    rw [append_nil]
    exact holds.items
  · have hBody : (AgentCoreLoop.driveLoop.body current).1 = _ := hOnce
    rw [hBody]
    constructor
    · show unansweredCalls unanswered (current.transcriptItemOutbox ++ transition.items) = _
      rw [unansweredCalls_append, holds.items]
      exact unansweredCalls_fires fires holds.keyed
    · exact holds.keyed.fires fires

theorem openTurnScan_marker {sawOpenTail : Bool}
    (found : ModelContext.openTurnScan items sawOpenTail = some (turnId, start)) :
    ∃ later marker before, items = later ++ marker :: before ∧ before.length = start ∧
      ∀ unanswered left, scanItem unanswered marker = some left → unanswered = [] ∧ left = [] := by
  induction items generalizing sawOpenTail with
  | nil => cases found
  | cons item before ih =>
    have goesOn : ∀ sawOpenTail, openTurnScan before sawOpenTail = some (turnId, start) →
        ∃ later marker rest, item :: before = later ++ marker :: rest ∧ rest.length = start ∧
          ∀ unanswered left, scanItem unanswered marker = some left →
            unanswered = [] ∧ left = [] := by
      intro sawOpenTail found
      obtain ⟨later, marker, rest, split, length, starts⟩ := ih found
      exact ⟨item :: later, marker, rest, by rw [split]; rfl, length, starts⟩
    have settles : ∀ unanswered left : List (ToolCallId × String),
        (if unanswered = [] then some [] else none) = some left → unanswered = [] ∧ left = [] := by
      intro unanswered left scanned
      split at scanned
      · rename_i nothing
        exact ⟨nothing, (Option.some.inj scanned).symm⟩
      · cases scanned
    cases item with
    | turnFinished => cases found
    | turnStarted =>
      cases found
      exact ⟨[], _, before, rfl, rfl, settles⟩
    | compactionSummary =>
      rw [openTurnScan] at found
      split at found
      · cases found
        exact ⟨[], _, before, rfl, rfl, settles⟩
      · cases found
    | _ =>
      exact goesOn true found

section

variable (scanned : unansweredCalls [] items = some unanswered)
include scanned

section

variable (found : ModelContext.openTurnStart items = some (turnId, start))
include found

theorem unansweredCalls_openTurn : unansweredCalls [] (items.drop start) = some unanswered := by
  obtain ⟨later, marker, before, split, length, starts⟩ := openTurnScan_marker found
  have hItems : items = before.reverse ++ marker :: later.reverse := by
    have reversed := congrArg List.reverse split
    rw [reverse_reverse, reverse_append, reverse_cons, append_assoc] at reversed
    exact reversed
  have hDrop : items.drop start = marker :: later.reverse := by
    rw [hItems, ← length, ← length_reverse, drop_left]
  rw [hItems, unansweredCalls_append] at scanned
  obtain ⟨middle, _, rest⟩ := bind_eq_some_iff.mp scanned
  obtain ⟨left, here, _⟩ := bind_eq_some_iff.mp rest
  obtain ⟨rfl, _⟩ := starts middle left here
  rw [hDrop, unansweredCalls_cons]
  exact rest

theorem unansweredCalls_closing (outcome : TurnOutcome) :
    unansweredCalls unanswered (ModelContext.closingItems items turnId start outcome) = some [] := by
  have turn := unansweredCalls_openTurn scanned found
  rw [closingItems, unansweredCalls_append]
  generalize hAdded : completeToolCalls turnId (assistantToolCalls (items.drop start))
    (startedToolCalls (items.drop start))
    (toolResults (items.drop start)) = added
  have answers : unansweredCalls unanswered added = some [] := by
    apply unansweredCalls_answered
    · intro item mem
      rw [← hAdded] at mem
      rcases mem_completeToolCalls mem with ⟨toolCall, rfl⟩ | ⟨result, rfl⟩
      · exact .inl ⟨turnId, toolCall, rfl⟩
      · exact .inr ⟨result, rfl⟩
    · rw [perm_iff_count]
      intro key
      have counted := count_calls_of_scanned turn key
      have completed := count_completed_results turnId (assistantToolCalls (items.drop start))
        (startedToolCalls (items.drop start))
        (toolResults (items.drop start)) key
      rw [hAdded] at completed
      rw [callCount, resultCount, count_nil] at counted
      omega
  rw [answers]
  rfl

end

theorem unansweredCalls_of_boundary (boundary : ModelContext.isTurnBoundaryItems items) :
    unanswered = [] := by
  rw [isTurnBoundaryItems] at boundary
  cases hLast : items.getLast? with
  | none =>
    rw [getLast?_eq_none_iff.mp hLast] at scanned
    exact (Option.some.inj scanned).symm
  | some last =>
    rw [hLast] at boundary
    obtain ⟨_, rfl⟩ := getLast?_eq_some_iff.mp hLast
    rw [unansweredCalls_append] at scanned
    obtain ⟨_, _, here⟩ := bind_eq_some_iff.mp scanned
    obtain ⟨_, step, rest⟩ := bind_eq_some_iff.mp here
    cases rest
    cases last with
    | turnFinished | compactionSummary =>
      rw [scanItem] at step
      split at step
      · exact (Option.some.inj step).symm
      · cases step
    | _ => cases boundary

end

/-- A step of a session's life: a call, or a restart from what is stored. -/
inductive LifeStep where
  | call (call : SessionCall)
  | reload (recovery : Recovery) (sessionId : String) (stamps : Nat → EntryStamp)

/-- The ids the step draws are new, and it does not put another runtime in place. -/
def LifeStep.Ordinary (session : AgentSession) : LifeStep → Prop
  | .call (.resumeModelTurn _ _ _ _) | .call (.restoreCompactedRuntime _ _ _) => False
  | .call (.enqueueSessionInput _ stamps) | .call (.drive stamps) | .reload _ _ stamps =>
    Fresh stamps session.transcriptStore.nodes
  | .call (.enqueueInput _) | .call .drainPendingInputs | .call .drainActions
  | .call .drainEvents => True

/-- An output that is accepted though it was cut off asks for no tool. -/
def LifeStep.CutsNoCalls (session : AgentSession) : LifeStep → Prop
  | .call (.enqueueSessionInput (.modelMaxOutputTokens actionId turnId assistant _ _) _) =>
    { actionId, turnId, tool := none } ∈ session.outstandingActions.pending →
      assistant.toolCalls = []
  | _ => True

namespace AgentSession

def live (session : AgentSession) : LifeStep → Option AgentSession
  | .call call => some (session.call call)
  | .reload recovery sessionId stamps =>
    (recovery.load (session.toStoredSession sessionId) stamps).toOption

/-- The sessions of `new`, with restarts, whose steps all meet the guard. -/
def lives (guard : AgentSession → LifeStep → Prop) : Machine AgentSession LifeStep :=
  (Machine.ofSteps (· = new) live).guarded fun session step =>
    step.Ordinary session ∧ guard session step

theorem lives_call {guard : AgentSession → LifeStep → Prop} {session : AgentSession}
    (prior : (lives guard).Reaches session) (call : SessionCall)
    (ordinary : (LifeStep.call call).Ordinary session) (admitted : guard session (.call call)) :
    (lives guard).Reaches (session.call call) :=
  .next prior ⟨⟨ordinary, admitted⟩, rfl⟩

/-- A new session is asked to go, and asks the model. -/
theorem lives_asked {guard : AgentSession → LifeStep → Prop}
    (enqueues : ∀ session input, guard session (.call (.enqueueInput input)))
    (drives : ∀ session stamps, guard session (.call (.drive stamps))) :
    (lives guard).Reaches ((new.call (.enqueueInput (.followUp { message := .text "go" }))).call
      (.drive (stampsFrom 1))) :=
  lives_call (lives_call (.start rfl) (.enqueueInput _) trivial (enqueues _ _)) (.drive _)
    (stampsFrom_fresh (by decide +kernel)) (drives _ _)

structure Paired (session : AgentSession) : Prop where
  rooted : session.transcriptStore.Rooted
  bounded : session.LedgerBounded
  keyed : KeyedTools session.core.state
  scanned : unansweredCalls [] session.modelContext.items = some (awaitedCalls session.core.state)

namespace Paired

variable {session after : AgentSession}

theorem of_same (paired : session.Paired) (bounded : after.LedgerBounded)
    (hState : after.core.state = session.core.state)
    (hStore : after.transcriptStore = session.transcriptStore) : after.Paired where
  rooted := hStore ▸ paired.rooted
  bounded := bounded
  keyed := hState ▸ paired.keyed
  scanned := by
    rw [modelContext, hStore, hState]
    exact paired.scanned

theorem enqueueAccepted (paired : session.Paired) (input : AgentInput) :
    (session.enqueueAccepted input).Paired := by
  apply paired.of_same (paired.bounded.enqueueAccepted input)
  · rcases session.enqueueAccepted_core input with same | enqueued
    · rw [same]
    · rw [enqueued]
      rfl
  · exact session.enqueueAccepted_transcriptStore input

variable {stamps : Nat → EntryStamp}

section

variable (paired : session.Paired)
include paired

section

variable (fresh : Fresh stamps session.transcriptStore.nodes)
include fresh

theorem drive : (session.drive stamps).Paired := by
  have start : Scanned (awaitedCalls session.core.state) session.core := by
    refine ⟨?_, paired.keyed⟩
    rw [paired.bounded.noItems]
    rfl
  have driven := start.drive
  refine
    { rooted := ?_
      bounded := paired.bounded.drive stamps
      keyed := by rw [drive_core]; exact driven.keyed
      scanned := ?_ }
  · rw [drive_transcriptStore]
    exact paired.rooted.appendTranscriptItems fresh
  · rw [modelContext, drive_transcriptStore, drive_core,
      paired.rooted.restored.modelContext_appendTranscriptItems _ fresh]
    exact unansweredCalls_extend paired.scanned driven.items

theorem cutOff {actionId : ActionId} {turnId : TurnId} {assistant : AssistantMessage}
    (noCalls : { actionId, turnId, tool := none } ∈ session.outstandingActions.pending →
      assistant.toolCalls = []) (providerReplay : List ProviderReplayItem) (error : String) :
    (session.acceptModelMaxOutputTokens actionId turnId assistant providerReplay error
      stamps).Paired := by
  have bounded := paired.bounded.acceptModelMaxOutputTokens actionId turnId assistant providerReplay
    error stamps
  rcases session.acceptModelMaxOutputTokens_cases actionId turnId assistant providerReplay error
    stamps with ⟨_, same⟩ | ⟨isPending, accepted⟩
  · rw [same]
    exact paired
  · obtain ⟨running, _⟩ := paired.bounded.lone_model isPending
    rw [accepted] at bounded ⊢
    have first := paired.rooted.appendItem (.assistantMessage assistant) providerReplay
      (fresh.unused 0)
    have secondUnused : (stamps 1).id ∉ entryIds (session.transcriptStore.appendItem
        (.assistantMessage assistant) providerReplay (stamps 0)).nodes :=
      (fresh.shift _ rfl).unused 0
    refine
      { rooted := first.appendItem (.turnFinished turnId .crashed) [] secondUnused
        bounded
        keyed := paired.keyed
        scanned := ?_ }
    show unansweredCalls [] ((session.transcriptStore.appendItem (.assistantMessage assistant)
      providerReplay (stamps 0)).appendItem (.turnFinished turnId .crashed) []
        (stamps 1)).modelContext.items
        = some (awaitedCalls session.core.state)
    rw [first.restored.modelContext_appendItem secondUnused,
      paired.rooted.restored.modelContext_appendItem (fresh.unused 0), append_assoc]
    apply unansweredCalls_extend paired.scanned
    rw [running, awaitedCalls]
    simp [unansweredCalls, scanItem, noCalls isPending]

theorem reload {recovery : Recovery} {sessionId : String}
    (loaded : recovery.load (session.toStoredSession sessionId) stamps = .ok after) :
    after.Paired := by
  obtain ⟨hEntries, same, forest, known⟩ :=
    toStoredSession_restored paired.rooted.restored sessionId
  have idle : after.core.state = .idle := by
    have fresh' : Fresh stamps (session.toStoredSession sessionId).entries := hEntries ▸ fresh
    obtain ⟨_, recovered, _⟩ := (stored_session_recovery forest fresh' recovery).2 after loaded
    exact recovered.idle
  rcases load_cases forest known recovery stamps with
    ⟨error, _, failed⟩ | ⟨resumed, closed, found, _⟩
  · rw [loaded] at failed
    cases failed
  · rw [loaded] at found
    cases found
    rw [same] at closed
    obtain ⟨items, hStore, _, cases⟩ := closed_appends closed
    have constructed : after.Constructed := by
      cases recovery with
      | crashed => exact .fromStoredSession loaded
      | interrupted => exact .fromStoredSessionInterrupted loaded
    refine
      { rooted := ?_
        bounded := constructed.ledgerBounded
        keyed := by rw [idle]; trivial
        scanned := ?_ }
    · rw [hStore]
      exact paired.rooted.appendTranscriptItems fresh
    · rw [modelContext, hStore, idle,
        paired.rooted.restored.modelContext_appendTranscriptItems items fresh]
      apply unansweredCalls_extend paired.scanned
      rcases cases with ⟨boundary, rfl⟩ | ⟨turnId, start, opened, rfl⟩
      · rw [paired.rooted.restored.isTurnBoundary_eq] at boundary
        rw [unansweredCalls_of_boundary paired.scanned boundary]
        rfl
      · exact unansweredCalls_closing paired.scanned opened recovery.outcome

end

theorem call {call : SessionCall} (ordinary : (LifeStep.call call).Ordinary session)
    (cutsNoCalls : (LifeStep.call call).CutsNoCalls session) : (session.call call).Paired := by
  have bounded := paired.bounded.call call
  cases call with
  | enqueueInput => exact call_enqueueInput_of paired (paired.enqueueAccepted _)
  | enqueueSessionInput input =>
    cases input with
    | modelCompleted => exact paired.enqueueAccepted _
    | modelMaxOutputTokens _ _ _ providerReplay error =>
      exact paired.cutOff ordinary cutsNoCalls providerReplay error
  | drive => exact paired.drive ordinary
  | resumeModelTurn | restoreCompactedRuntime => cases ordinary
  | _ => exact paired.of_same bounded rfl rfl

end

end Paired

/-- Along the active path of every reached session each result has its call, and
each call of a turn that is over has its result, as long as no output that asks for
tools is cut off. -/
theorem tool_calls_paired {session : AgentSession}
    (reaches : (lives fun session step => step.CutsNoCalls session).Reaches session) :
    ∃ unanswered, unansweredCalls [] session.modelContext.items = some unanswered := by
  have paired : session.Paired := by
    apply reaches.invariant
    · rintro session rfl
      exact
        { rooted := ⟨.nil, by simp [new]⟩
          bounded := Constructed.ledgerBounded .new
          keyed := trivial
          scanned := rfl }
    · rintro session step after _ paired ⟨⟨ordinary, cutsNoCalls⟩, lived⟩
      cases step with
      | call call =>
        cases lived
        exact paired.call ordinary cutsNoCalls
      | reload recovery sessionId stamps =>
        have reloads : (recovery.load (session.toStoredSession sessionId) stamps).toOption =
            some after := lived
        cases loaded : recovery.load (session.toStoredSession sessionId) stamps with
        | error => rw [loaded] at reloads; cases reloads
        | ok =>
          rw [loaded] at reloads
          cases reloads
          exact paired.reload ordinary loaded
  exact ⟨_, paired.scanned⟩

/-- A batch of two tools, the later one finished, and then a crash: recovery answers
both calls. -/
theorem tool_calls_paired_recovered :
    ∃ session : AgentSession, session.modelContext.items.length = 8 ∧
      ∃ unanswered, unansweredCalls [] session.modelContext.items = some unanswered := by
  let calls : List ToolCall := [⟨"a", "bash", "\x7b\x7d"⟩, ⟨"b", "bash", "\x7b\x7d"⟩]
  have asked := @lives_asked (fun session step => step.CutsNoCalls session) (fun _ _ => trivial)
    fun _ _ => trivial
  have answered := lives_call asked
    (.enqueueSessionInput (.modelCompleted 1 1 { items := calls.map .toolCall }) (stampsFrom 3))
    (stampsFrom_fresh (by decide +kernel)) trivial
  have batch := lives_call answered (.drive (stampsFrom 3)) (stampsFrom_fresh (by decide +kernel))
    trivial
  have later := lives_call batch
    (.enqueueInput (.toolCompleted 3 1 ⟨"b", "bash", "", .success⟩)) trivial trivial
  have driven := lives_call later (.drive (stampsFrom 6)) (stampsFrom_fresh (by decide +kernel))
    trivial
  generalize hSession : AgentSession.call _ (.drive (stampsFrom 6)) = session at driven
  have counted : (session.live (.reload .crashed "s" (stampsFrom 6))).map
      (·.modelContext.items.length) = some 8 := by
    rw [← hSession]
    decide +kernel
  obtain ⟨after, reloaded, eight⟩ := map_eq_some_iff.mp counted
  have fresh : (LifeStep.reload .crashed "s" (stampsFrom 6)).Ordinary session := by
    rw [← hSession]
    exact stampsFrom_fresh (by decide +kernel)
  exact ⟨after, eight, tool_calls_paired (driven.next ⟨⟨fresh, trivial⟩, reloaded⟩)⟩

/-- An output that is cut off behind a tool call closes its turn without a result. -/
theorem cutOff_call_unanswered :
    ¬ ∀ session : AgentSession, (lives fun _ _ => True).Reaches session →
      ∃ unanswered, unansweredCalls [] session.modelContext.items = some unanswered := by
  intro paired
  have asked := @lives_asked (fun _ _ => True) (fun _ _ => trivial) fun _ _ => trivial
  have cut := lives_call asked (.enqueueSessionInput (.modelMaxOutputTokens 1 1
      { items := [.toolCall ⟨"a", "bash", "\x7b\x7d"⟩] } [] "cut") (stampsFrom 3))
    (stampsFrom_fresh (by decide +kernel)) trivial
  obtain ⟨unanswered, scanned⟩ := paired _ cut
  have unpaired : unansweredCalls [] (AgentSession.call ((new.call
      (.enqueueInput (.followUp { message := .text "go" }))).call (.drive (stampsFrom 1)))
      (.enqueueSessionInput (.modelMaxOutputTokens 1 1
        { items := [.toolCall ⟨"a", "bash", "\x7b\x7d"⟩] } [] "cut")
        (stampsFrom 3))).modelContext.items = none := by decide +kernel
  rw [unpaired] at scanned
  cases scanned

end AgentSession

end PiRelay.Session
