import PiRelay.AgentSession.ToolPairing

/-! Two ways to interrupt a turn. The live core works from the tools it has in
flight; recovery works from the stored path and matches the calls of the whole
turn with their starts and results. On every path the core has written the two
append the same items. -/
namespace PiRelay.Session

open AgentVocab AgentCore ModelContext ToolCall List

def isInner : TranscriptItem → Bool
  | .turnStarted _ | .turnFinished _ _ | .compactionSummary _ => false
  | .userMessage _ | .daemonToolObservation _ | .assistantMessage _ | .toolCallStarted _ _
  | .toolResult _ => true

variable {item : TranscriptItem}

theorem batchItems_isInner {turnId : TurnId} {assistant : AssistantMessage}
    {results : List ToolResultMessage} (mem : item ∈ batchItems turnId assistant results) :
    isInner item := by
  simp only [batchItems, cons_append, mem_cons, mem_append, mem_map] at mem
  rcases mem with rfl | ⟨call, _, rfl⟩ | ⟨result, _, rfl⟩ <;> rfl

theorem isInner_of_isInput (carried : item.isInput) : isInner item := by
  cases item with
  | userMessage | daemonToolObservation => rfl
  | _ => cases carried

theorem openTurnStart_of_inner (done : List TranscriptItem) (turnId : TurnId)
    {tail : List TranscriptItem} (inner : ∀ item ∈ tail, isInner item) :
    ModelContext.openTurnStart (done ++ .turnStarted turnId :: tail) =
      some (turnId, done.length) := by
  have scan : ∀ (reversed : List TranscriptItem) (sawOpenTail : Bool),
      (∀ item ∈ reversed, isInner item) →
        openTurnScan (reversed ++ .turnStarted turnId :: done.reverse) sawOpenTail =
          some (turnId, done.length) := by
    intro reversed
    induction reversed with
    | nil =>
      intro sawOpenTail _
      simp [openTurnScan]
    | cons item _ ih =>
      intro sawOpenTail inner
      have later := ih true (forall_mem_cons.mp inner).2
      have here := inner item (.head _)
      cases item with
      | turnStarted | turnFinished | compactionSummary => cases here
      | _ =>
        exact later
  rw [openTurnStart, reverse_append, reverse_cons, append_assoc]
  exact scan tail.reverse false fun item mem => inner item (mem_reverse.mp mem)

/-- Calls, starts and results of some items, each in their order. -/
structure Answered (items : List TranscriptItem) : Prop where
  started : (ModelContext.startedToolCalls items).map ToolCall.key =
    (ModelContext.assistantToolCalls items).map ToolCall.key
  answered : (ModelContext.toolResults items).map ToolResultMessage.key =
    (ModelContext.assistantToolCalls items).map ToolCall.key

section

variable (first second : List TranscriptItem)
include first second

theorem assistantToolCalls_append :
    ModelContext.assistantToolCalls (first ++ second) =
      ModelContext.assistantToolCalls first ++ ModelContext.assistantToolCalls second := by
  simp [assistantToolCalls]

theorem startedToolCalls_append :
    ModelContext.startedToolCalls (first ++ second) =
      ModelContext.startedToolCalls first ++ ModelContext.startedToolCalls second := by
  simp [startedToolCalls]

theorem toolResults_append :
    ModelContext.toolResults (first ++ second) =
      ModelContext.toolResults first ++ ModelContext.toolResults second := by
  simp [toolResults]

end

theorem Answered.append {first second : List TranscriptItem} (left : Answered first)
    (right : Answered second) : Answered (first ++ second) where
  started := by
    rw [startedToolCalls_append, assistantToolCalls_append, map_append, map_append,
      left.started, right.started]
  answered := by
    rw [toolResults_append, assistantToolCalls_append, map_append, map_append,
      left.answered, right.answered]

theorem Answered.of_input (carried : item.isInput) : Answered [item] := by
  cases item with
  | userMessage | daemonToolObservation => exact ⟨rfl, rfl⟩
  | _ => cases carried

section Batch

variable (turnId : TurnId) (assistant : AssistantMessage) (results : List ToolResultMessage)

theorem batchItems_calls :
    ModelContext.assistantToolCalls (batchItems turnId assistant results) =
      assistant.toolCalls := by
  simp [batchItems, assistantToolCalls, flatMap_map]

theorem batchItems_starts :
    ModelContext.startedToolCalls (batchItems turnId assistant results) = assistant.toolCalls := by
  simp [batchItems, startedToolCalls, filterMap_map]

theorem batchItems_results :
    ModelContext.toolResults (batchItems turnId assistant results) = results := by
  simp [batchItems, toolResults, filterMap_map]

end Batch

theorem opened_spec {turnId : TurnId} {items : List TranscriptItem} (opened : Opened turnId items) :
    ∃ tail, items = .turnStarted turnId :: tail ∧ (∀ item ∈ tail, isInner item) ∧
      Answered items := by
  induction opened with
  | start input carried =>
    refine ⟨[input], rfl, ?_, ?_⟩
    · intro item mem
      rw [mem_singleton.mp mem]
      exact isInner_of_isInput carried
    · have begins : Answered [TranscriptItem.turnStarted turnId] := ⟨rfl, rfl⟩
      exact begins.append (.of_input carried)
  | round _ last ih =>
    obtain ⟨tail, rfl, inner, answered⟩ := ih
    obtain ⟨assistant, results, input, -, keys, carried⟩ := last
    refine ⟨tail ++ (batchItems turnId assistant results ++ input.toList), rfl, ?_, ?_⟩
    · intro item mem
      rcases mem_append.mp mem with old | new
      · exact inner item old
      · rcases mem_append.mp new with inBatch | inInput
        · exact batchItems_isInner inBatch
        · exact isInner_of_isInput (carried item (Option.mem_toList.mp inInput))
    · apply answered.append
      have batch : Answered (batchItems turnId assistant results) := by
        constructor
        · rw [batchItems_starts, batchItems_calls]
        · rw [batchItems_results, batchItems_calls, keys]
      apply batch.append
      cases input with
      | none => exact ⟨rfl, rfl⟩
      | some item => exact .of_input (carried item rfl)

/-- The results a turn lacks, in call order. -/
def crashedResults (calls : List ToolCall) : List TranscriptItem :=
  calls.map fun call => .toolResult (ToolResultMessage.crashed call.id call.toolName)

theorem completeToolCalls_of_take (turnId : TurnId) {calls started : List ToolCall}
    {completed : List ToolResultMessage} {count : Nat}
    (hStarted : started.map ToolCall.key = calls.map ToolCall.key)
    (hCompleted : completed.map ToolResultMessage.key = (calls.take count).map ToolCall.key) :
    ModelContext.completeToolCalls turnId calls started completed =
      crashedResults (calls.drop count) := by
  induction calls generalizing started completed count with
  | nil => simp [completeToolCalls, crashedResults]
  | cons call rest ih =>
    obtain ⟨started', completed', hStarted', hCompleted', hItems⟩ :=
      completeToolCalls_cons turnId call rest started completed
    rw [hStarted, map_cons, erase_cons_head] at hStarted'
    have hasStart : (started.map key).contains call.key := by
      rw [hStarted]
      simp
    rw [hItems, if_pos hasStart, nil_append]
    cases count with
    | zero =>
      have none : completed = [] := by simpa using hCompleted
      subst none
      have none' : completed' = [] := by simpa using hCompleted'
      rw [ih hStarted' (by rw [none']; rfl : completed'.map ToolResultMessage.key =
        (rest.take 0).map key)]
      rfl
    | succ =>
      rw [take_succ_cons, map_cons] at hCompleted
      have hasResult : (completed.map ToolResultMessage.key).contains call.key := by
        rw [hCompleted]
        simp
      rw [hCompleted, erase_cons_head] at hCompleted'
      rw [if_pos hasResult, nil_append, ih hStarted' hCompleted']
      rfl

def runningCalls : AgentState → List ToolCall
  | .runningTools _ tools index => (tools.drop index).map RunningTool.call
  | .idle | .runningModel _ _ | .readyToContinue _ => []

theorem closingItems_of_emits {emitted : List TranscriptItem} {state : AgentState} {last : TurnId}
    (emits : Emits emitted state last) (busy : state ≠ .idle) (outcome : TurnOutcome) :
    ∃ start, ModelContext.openTurnStart emitted = some (last, start) ∧
      ModelContext.closingItems emitted last start outcome =
        crashedResults (runningCalls state) ++ [.turnFinished last outcome] := by
  -- The open turn is whole rounds, then items with the calls and results given.
  have closes : ∀ (more : List TranscriptItem) (count : Nat) {done opened : List TranscriptItem},
      Opened last opened →
      (∀ item ∈ more, isInner item) → emitted = done ++ (opened ++ more) →
      (startedToolCalls more).map key = (assistantToolCalls more).map key →
      (toolResults more).map ToolResultMessage.key =
        ((assistantToolCalls more).take count).map key →
      ∃ start, openTurnStart emitted = some (last, start) ∧
        closingItems emitted last start outcome =
          crashedResults ((assistantToolCalls more).drop count)
            ++ [.turnFinished last outcome] := by
    intro more count done opened hOpened inner split starts results
    obtain ⟨tail, rfl, innerTail, answered⟩ := opened_spec hOpened
    subst split
    refine ⟨done.length, ?_, ?_⟩
    · apply openTurnStart_of_inner
      intro item mem
      rcases mem_append.mp mem with old | new
      · exact innerTail item old
      · exact inner item new
    · have completed := @completeToolCalls_of_take last
        (assistantToolCalls (.turnStarted last :: tail ++ more))
        (startedToolCalls (.turnStarted last :: tail ++ more))
        (toolResults (.turnStarted last :: tail ++ more))
        ((assistantToolCalls (.turnStarted last :: tail)).length + count)
        (by rw [startedToolCalls_append, assistantToolCalls_append, map_append,
              map_append, answered.started, starts])
        (by rw [toolResults_append, assistantToolCalls_append, map_append,
              take_length_add_append, map_append, answered.answered, results])
      rw [closingItems, drop_left, completed, assistantToolCalls_append, drop_length_add_append]
  cases emits with
  | idle => exact absurd rfl busy
  | runningModel _ hOpened split =>
    exact closes [] 0 hOpened (by simp) (by rw [append_nil]; exact split) rfl rfl
  | @runningTools _ tools index _ _ assistant results turns hOpened split someCalls calls recorded
      keyed =>
      have starts : (startedToolCalls (batchItems last assistant results)).map key =
          (assistantToolCalls (batchItems last assistant results)).map
            key := by
        rw [batchItems_starts, batchItems_calls]
      have answers : (toolResults (batchItems last assistant results)).map ToolResultMessage.key =
          ((assistantToolCalls (batchItems last assistant results)).take index).map
            key := by
        rw [batchItems_results, batchItems_calls]
        exact recorded
      have closed := closes _ index hOpened (fun _ => batchItems_isInner) split starts answers
      rw [batchItems_calls, ← calls, ← map_drop] at closed
      exact closed
  | @readyToContinue _ _ _ assistant results turns hOpened split someCalls answered =>
    have starts : (startedToolCalls (batchItems last assistant results)).map key =
        (assistantToolCalls (batchItems last assistant results)).map
          key := by
      rw [batchItems_starts, batchItems_calls]
    have answers : (toolResults (batchItems last assistant results)).map ToolResultMessage.key =
        ((assistantToolCalls (batchItems last assistant results)).take
          assistant.toolCalls.length).map key := by
      rw [batchItems_results, batchItems_calls, take_length]
      exact answered
    have closed := closes _ assistant.toolCalls.length hOpened (fun _ => batchItems_isInner) split
      starts answers
    rw [batchItems_calls, drop_length] at closed
    exact closed

/-- No result waits for an earlier one. -/
def NothingBuffered : AgentState → Prop
  | .runningTools _ tools index => ∀ tool ∈ tools.drop index, tool.result = none
  | .idle | .runningModel _ _ | .readyToContinue _ => True

instance : DecidablePred NothingBuffered
  | .runningTools _ tools index =>
    inferInstanceAs (Decidable (∀ tool ∈ tools.drop index, tool.result = none))
  | .idle | .runningModel _ _ | .readyToContinue _ => inferInstanceAs (Decidable True)

/-- The items up to the first end of a turn, and that end. -/
def throughTurnFinished : List TranscriptItem → List TranscriptItem
  | [] => []
  | .turnFinished turnId outcome :: _ => [.turnFinished turnId outcome]
  | item :: rest => item :: throughTurnFinished rest

theorem throughTurnFinished_crashedResults (calls : List ToolCall) (turnId : TurnId)
    (outcome : TurnOutcome) (rest : List TranscriptItem) :
    throughTurnFinished (crashedResults calls ++ [.turnFinished turnId outcome] ++ rest) =
      crashedResults calls ++ [.turnFinished turnId outcome] := by
  induction calls with
  | nil => rfl
  | cons _ _ ih => exact congrArg (List.cons _) ih

theorem interrupt_items {emitted : List TranscriptItem} {state : AgentState} {last : TurnId}
    (emits : Emits emitted state last) (busy : state ≠ .idle) (nothing : NothingBuffered state)
    (next : ActionId) :
    (state.step .interrupt next).items =
        crashedResults (runningCalls state) ++ [.turnFinished last .interrupted] ∧
      (state.step .interrupt next).state = .idle := by
  cases emits with
  | idle => exact absurd rfl busy
  | runningModel | readyToContinue => exact ⟨rfl, rfl⟩
  | @runningTools _ tools index =>
    refine ⟨?_, rfl⟩
    show (tools.drop index).map (fun tool =>
        TranscriptItem.toolResult (AgentState.interruptedResult tool))
          ++ [.turnFinished last .interrupted] = _
    rw [runningCalls, crashedResults, map_map]
    congr 1
    apply map_congr_left
    intro tool mem
    rw [AgentState.interruptedResult, nothing tool mem]
    rfl

theorem drive_of_idle_cases {loop : AgentCoreLoop} (idle : loop.state = .idle)
    (only : loop.mailbox.OnlyCompletions) :
    ∃ rest, loop.drive.transcriptItemOutbox = loop.transcriptItemOutbox ++ rest ∧
      ((rest = [] ∧ loop.drive.state = .idle ∧ loop.drive.lastTurnId = loop.lastTurnId) ∨
        ∃ input, rest = [.turnStarted (TurnId.next loop.lastTurnId), input]) := by
  induction hNotified : loop.mailbox.notifications generalizing loop with
  | cons event others ih =>
    have completion : event.isCompletion := only event (hNotified ▸ mem_cons_self)
    rw [drive_of_idle_notification idle hNotified completion]
    have onlyOthers : ∀ other ∈ others, other.isCompletion := by
      intro other hOther
      exact only other (hNotified ▸ .tail _ hOther)
    have later := @ih { loop with
      mailbox := { loop.mailbox with notifications := others, interruptRequested := false } }
      idle onlyOthers rfl
    exact later
  | nil =>
    have starts : ∀ event mailbox items, loop.nextEvent = (some event, mailbox) →
        loop.state.step event loop.nextActionId =
          requestModel (TurnId.next loop.lastTurnId) items loop.nextActionId →
        mailbox.notifications = [] → mailbox.interruptRequested = false →
        loop.drive.transcriptItemOutbox = loop.transcriptItemOutbox ++ items := by
      intro event mailbox items hNext hStep settled quiet
      have hFirst := AgentCoreLoop.driveOnce_of_some hNext
      have again : loop.driveOnce.2 := by
        apply (AgentCoreLoop.driveOnce_again_iff hNext).mpr
        right
        rw [hStep]
        intro turnId
        simp [requestModel, ActionId.takeNext]
      rw [hStep] at hFirst
      rw [AgentCoreLoop.drive_of_again again, hFirst,
        AgentCoreLoop.drive_of_runningModel rfl settled quiet]
      rfl
    rcases hNext : loop.nextEvent with ⟨event, mailbox⟩
    have takes := AgentCoreLoop.takes_of_nextEvent hNext
    rw [idle] at takes
    cases takes with
    | interrupt active | waiting active => cases active
    | notification _ first => rw [hNotified] at first; cases first
    | startSteer settled | startFollowUp settled | startObservation settled =>
      refine ⟨_, starts _ _ _ hNext (by rw [idle]; rfl) settled rfl, .inr ⟨_, rfl⟩⟩
    | emptyIdle =>
      have hOnce := AgentCoreLoop.driveOnce_of_none hNext
      rw [AgentCoreLoop.drive_of_stop (congrArg Prod.snd hOnce), hOnce]
      exact ⟨[], (append_nil _).symm, .inl ⟨rfl, idle, rfl⟩⟩

/-- The calls that bring inputs and whole messages and drive the core. -/
def LifeStep.Uncut : LifeStep → Prop
  | .call (.enqueueSessionInput (.modelMaxOutputTokens _ _ _ _ _) _) | .reload _ _ _ => False
  | .call _ => True

theorem emits_drive {before : List TranscriptItem} {loop : AgentCoreLoop}
    (only : loop.mailbox.OnlyCompletions)
    (emits : Emits (before ++ loop.transcriptItemOutbox) loop.state loop.lastTurnId) :
    Emits (before ++ loop.drive.transcriptItemOutbox) loop.drive.state loop.drive.lastTurnId := by
  have both := AgentCoreLoop.driveLoop.run_invariant
    (motive := fun current => current.mailbox.OnlyCompletions ∧
      Emits (before ++ current.transcriptItemOutbox) current.state current.lastTurnId) ?_
    ⟨only, emits⟩
  · exact both.2
  · rintro current ⟨only, emits⟩
    rcases hNext : current.nextEvent with ⟨_ | event, mailbox⟩
    · have hBody : (AgentCoreLoop.driveLoop.body current).1 = { current with mailbox } :=
        congrArg Prod.fst (AgentCoreLoop.driveOnce_of_none hNext)
      rw [hBody]
      exact ⟨only.takes (AgentCoreLoop.takes_of_nextEvent hNext), emits⟩
    · have takes := AgentCoreLoop.takes_of_nextEvent hNext
      have hBody : (AgentCoreLoop.driveLoop.body current).1 = _ :=
        AgentCoreLoop.driveOnce_of_some hNext
      rw [hBody]
      refine ⟨only.takes takes, ?_⟩
      rw [AgentCoreLoop.apply]
      rcases AgentState.step_cases current.state event current.nextActionId with ignored | fires
      · rw [ignored]
        simpa [emptyTransition, startedTurnId] using emits
      · have written := emits.fires fires (fun _ _ starts => only.startTurn_eq (starts ▸ takes))
          (fun _ _ starts => only.startObservation_eq (starts ▸ takes))
        rw [append_assoc] at written
        exact written

namespace AgentSession

structure Written (session : AgentSession) : Prop where
  rooted : session.transcriptStore.Rooted
  noItems : session.core.transcriptItemOutbox = []
  completions : session.core.mailbox.OnlyCompletions
  emits : Emits session.modelContext.items session.core.state session.core.lastTurnId

namespace Written

variable {session after : AgentSession}

section

variable (written : session.Written)
include written

theorem of_same (hState : after.core.state = session.core.state)
    (hTurn : after.core.lastTurnId = session.core.lastTurnId)
    (hItems : after.core.transcriptItemOutbox = session.core.transcriptItemOutbox)
    (completions : after.core.mailbox.OnlyCompletions)
    (hStore : after.transcriptStore = session.transcriptStore) : after.Written where
  rooted := hStore ▸ written.rooted
  noItems := hItems.trans written.noItems
  completions := completions
  emits := by
    rw [modelContext, hStore, hState, hTurn]
    exact written.emits

theorem enqueueAccepted (input : AgentInput) : (session.enqueueAccepted input).Written := by
  have hStore := session.enqueueAccepted_transcriptStore input
  rcases session.enqueueAccepted_core input with same | enqueued
  · exact written.of_same (by rw [same]) (by rw [same]) (by rw [same])
      (by rw [same]; exact written.completions) hStore
  · exact written.of_same (by rw [enqueued]; rfl) (by rw [enqueued]; rfl) (by rw [enqueued]; rfl)
      (by rw [enqueued]; exact written.completions.pushInput input) hStore

theorem drive_items {stamps : Nat → EntryStamp} (fresh : Fresh stamps session.transcriptStore.nodes) :
    (session.drive stamps).modelContext.items =
      session.modelContext.items ++ session.core.drive.transcriptItemOutbox := by
  rw [modelContext, drive_transcriptStore]
  exact written.rooted.restored.modelContext_appendTranscriptItems _ fresh

theorem drive {stamps : Nat → EntryStamp} (fresh : Fresh stamps session.transcriptStore.nodes) :
    (session.drive stamps).Written := by
  have start : Emits (session.modelContext.items ++ session.core.transcriptItemOutbox)
      session.core.state session.core.lastTurnId := by
    rw [written.noItems, append_nil]
    exact written.emits
  refine
    { rooted := ?_
      noItems := by rw [drive_core]
      completions := by
        rw [drive_core]
        exact AgentCoreLoop.drive_onlyCompletions written.completions
      emits := ?_ }
  · rw [drive_transcriptStore]
    exact written.rooted.appendTranscriptItems fresh
  · rw [written.drive_items fresh, drive_core]
    exact emits_drive written.completions start

theorem call {call : SessionCall} (ordinary : (LifeStep.call call).Ordinary session)
    (uncut : (LifeStep.call call).Uncut) : (session.call call).Written := by
  cases call with
  | enqueueInput => exact call_enqueueInput_of written (written.enqueueAccepted _)
  | enqueueSessionInput input =>
    cases input with
    | modelCompleted => exact written.enqueueAccepted _
    | modelMaxOutputTokens => cases uncut
  | drive => exact written.drive ordinary
  | resumeModelTurn | restoreCompactedRuntime => cases ordinary
  | _ => exact written.of_same rfl rfl rfl written.completions rfl

end

end Written

theorem written_of_reaches {session : AgentSession}
    (reaches : (lives fun _ step => step.Uncut).Reaches session) : session.Written := by
  apply reaches.invariant
  · rintro session rfl
    exact
      { rooted := ⟨.nil, by simp [new]⟩
        noItems := rfl
        completions := by simp [new, AgentCoreLoop.resumeAt, Mailbox.OnlyCompletions]
        emits := .idle .nil }
  · rintro session step after _ written ⟨⟨ordinary, uncut⟩, lived⟩
    cases step with
    | call call =>
      cases lived
      exact written.call ordinary uncut
    | reload => cases uncut

/-- What recovery appends to a session that was stored while busy. -/
theorem Written.recovered {session : AgentSession} (written : session.Written)
    (busy : session.core.state ≠ .idle) {stamps : Nat → EntryStamp}
    (fresh : Fresh stamps session.transcriptStore.nodes) (sessionId : String) :
    ∃ recovered, fromStoredSessionInterrupted (session.toStoredSession sessionId) stamps =
        .ok recovered ∧
      recovered.modelContext.items = session.modelContext.items
        ++ (crashedResults (runningCalls session.core.state)
          ++ [.turnFinished session.core.lastTurnId .interrupted]) ∧
      recovered.core.state = .idle ∧ recovered.core.lastTurnId = session.core.lastTurnId := by
  obtain ⟨_, found, closes⟩ := closingItems_of_emits written.emits busy .interrupted
  obtain ⟨hEntries, same, forest, known⟩ :=
    toStoredSession_restored written.rooted.restored sessionId
  have open' : ¬ session.transcriptStore.isTurnBoundary := by
    intro boundary
    rw [written.rooted.restored.isTurnBoundary_eq] at boundary
    rw [modelContext, openTurnStart_of_boundary boundary] at found
    cases found
  have closed := closeTranscriptStoreOpenTurnTo_eq .interrupted session.transcriptStore stamps
  rw [if_neg open', ← modelContext, found] at closed
  simp only [closes] at closed
  have fresh' : Fresh stamps (session.toStoredSession sessionId).entries := hEntries ▸ fresh
  have result := (stored_session_recovery forest fresh' .interrupted).2
  rcases load_cases forest known .interrupted stamps with
    ⟨error, failed, _⟩ | ⟨recovered, done, loaded, _⟩
  · rw [same, Recovery.outcome, closed] at failed
    cases failed
  · rw [same, Recovery.outcome, closed] at done
    have hItems : recovered.modelContext.items = session.modelContext.items
        ++ (crashedResults (runningCalls session.core.state)
          ++ [.turnFinished session.core.lastTurnId .interrupted]) := by
      rw [modelContext, ← Except.ok.inj done]
      exact written.rooted.restored.modelContext_appendTranscriptItems _ fresh
    obtain ⟨_, properties, _⟩ := result recovered loaded
    refine ⟨recovered, loaded, hItems, properties.idle, ?_⟩
    rw [properties.lastTurn, lastTurnId, hItems, ← append_assoc, reverse_append]
    rfl

/-- Interrupting a busy session and driving it appends, up to the end of the turn,
what recovery appends to the session as it was stored before the interrupt. After
that the live core rests where the recovered one does, or it has started the turn
that the recovered one would start next. -/
theorem interrupt_agrees_with_recovery {session : AgentSession}
    (reaches : (lives fun _ step => step.Uncut).Reaches session)
    (busy : session.core.state ≠ .idle) (nothing : NothingBuffered session.core.state)
    {stamps others : Nat → EntryStamp} (fresh : Fresh stamps session.transcriptStore.nodes)
    (othersFresh : Fresh others session.transcriptStore.nodes) (sessionId : String) :
    ∃ recovered closing rest,
      fromStoredSessionInterrupted (session.toStoredSession sessionId) others = .ok recovered ∧
      recovered.modelContext.items = session.modelContext.items ++ closing ∧
      ((session.call (.enqueueInput .interrupt)).call (.drive stamps)).modelContext.items =
        session.modelContext.items ++ (closing ++ rest) ∧
      throughTurnFinished (closing ++ rest) = closing ∧
      recovered.core.state = .idle ∧
      ((rest = [] ∧
          ((session.call (.enqueueInput .interrupt)).call (.drive stamps)).core.state = .idle ∧
          ((session.call (.enqueueInput .interrupt)).call (.drive stamps)).core.lastTurnId =
            recovered.core.lastTurnId) ∨
        ∃ input, rest = [.turnStarted (TurnId.next recovered.core.lastTurnId), input]) := by
  have written := written_of_reaches reaches
  obtain ⟨recovered, loaded, hItems, idle, hTurn⟩ := written.recovered busy othersFresh sessionId
  have enqueued := written.enqueueAccepted .interrupt
  have enqueues := session.enqueueAccepted_enqueues .interrupt
  have hCalls : (session.call (.enqueueInput .interrupt)).call (.drive stamps) =
      (session.enqueueAccepted .interrupt).drive stamps := rfl
  rw [hCalls]
  generalize session.enqueueAccepted .interrupt = interrupted at enqueued enqueues
  cases enqueues with
  | completion reports | stale reports => cases reports
  | queued _ noInterrupt => exact absurd rfl noInterrupt
  | interrupt =>
    have hStore := session.invalidateSessionWork_transcriptStore
    have stillFresh : Fresh stamps session.invalidateSessionWork.transcriptStore.nodes :=
      hStore ▸ fresh
    have path := enqueued.drive_items stillFresh
    generalize hCore : session.core.enqueueInput .interrupt = core at path enqueued
    have hState : core.state = session.core.state := hCore ▸ rfl
    have hLast : core.lastTurnId = session.core.lastTurnId := hCore ▸ rfl
    have active : core.state.isActive := by
      rw [hState]
      cases hBusy : session.core.state with
      | idle => exact absurd hBusy busy
      | _ => rfl
    have requested : core.mailbox.interruptRequested := hCore ▸ rfl
    have hNext : core.nextEvent = (some .interrupt,
        { core.mailbox with interruptRequested := false }) := by
      simp [AgentCoreLoop.nextEvent, Mailbox.nextEvent, requested, active]
    obtain ⟨hStep, hIdle⟩ := interrupt_items written.emits busy nothing core.nextActionId
    rw [← hState] at hStep hIdle
    -- The first iteration of the drive is the interrupt, and the core goes on from idle.
    have hFirst := AgentCoreLoop.driveOnce_of_some hNext
    have again : core.driveOnce.2 := by
      apply (AgentCoreLoop.driveOnce_again_iff hNext).mpr
      right
      intro turnId
      simp [hIdle]
    have unstarted : startedTurnId (core.state.step .interrupt core.nextActionId).items = none := by
      apply startedTurnId_eq_none
      intro turnId mem
      rw [hStep] at mem
      simp [crashedResults] at mem
    have firstIdle : core.driveOnce.1.state = .idle := by
      rw [hFirst]
      exact hIdle
    have firstOnly : core.driveOnce.1.mailbox.OnlyCompletions := by
      rw [hFirst]
      exact enqueued.completions.takes (AgentCoreLoop.takes_of_nextEvent hNext)
    have firstItems : core.driveOnce.1.transcriptItemOutbox =
        crashedResults (runningCalls core.state)
          ++ [.turnFinished session.core.lastTurnId .interrupted] := by
      rw [hFirst, AgentCoreLoop.apply, hStep]
      exact congrArg (· ++ _) enqueued.noItems
    have firstTurn : core.driveOnce.1.lastTurnId = session.core.lastTurnId := by
      rw [hFirst, AgentCoreLoop.apply, unstarted]
      exact hLast
    obtain ⟨rest, hRest, ends⟩ := drive_of_idle_cases firstIdle firstOnly
    rw [← AgentCoreLoop.drive_of_again again] at hRest ends
    rw [firstItems, hState] at hRest
    refine ⟨recovered, _, rest, loaded, hItems, ?_, ?_, idle, ?_⟩
    · rw [path, modelContext, hStore, ← hRest]
      rfl
    · exact throughTurnFinished_crashedResults _ _ _ _
    · rw [drive_core, hTurn, ← firstTurn]
      exact ends

theorem interrupt_agrees_with_recovery_batch :
    ∃ (session recovered : AgentSession) (closing rest : List TranscriptItem),
      runningCalls session.core.state = [⟨"b", "bash", "\x7b\x7d"⟩] ∧
      fromStoredSessionInterrupted (session.toStoredSession "s") (stampsFrom 9) = .ok recovered ∧
      recovered.modelContext.items = session.modelContext.items ++ closing ∧
      ((session.call (.enqueueInput .interrupt)).call (.drive (stampsFrom 7))).modelContext.items =
        session.modelContext.items ++ (closing ++ rest) ∧
      throughTurnFinished (closing ++ rest) = closing := by
  let calls : List ToolCall := [⟨"a", "bash", "\x7b\x7d"⟩, ⟨"b", "bash", "\x7b\x7d"⟩]
  have asked := @lives_asked (fun _ step => step.Uncut) (fun _ _ => trivial) fun _ _ => trivial
  have answered := lives_call asked
    (.enqueueSessionInput (.modelCompleted 1 1 { items := calls.map .toolCall }) (stampsFrom 3))
    (stampsFrom_fresh (by decide +kernel)) trivial
  have batch := lives_call answered (.drive (stampsFrom 3)) (stampsFrom_fresh (by decide +kernel))
    trivial
  have first := lives_call batch
    (.enqueueInput (.toolCompleted 2 1 ⟨"a", "bash", "", .success⟩)) trivial trivial
  have driven := lives_call first (.drive (stampsFrom 6)) (stampsFrom_fresh (by decide +kernel))
    trivial
  generalize hSession : AgentSession.call _ (.drive (stampsFrom 6)) = session at driven
  have running : runningCalls session.core.state = [⟨"b", "bash", "\x7b\x7d"⟩] := by
    rw [← hSession]
    decide +kernel
  have busy : session.core.state ≠ .idle := by
    intro idle
    rw [idle] at running
    cases running
  have nothing : NothingBuffered session.core.state := by
    rw [← hSession]
    decide +kernel
  have fresh : Fresh (stampsFrom 7) session.transcriptStore.nodes :=
    stampsFrom_fresh (by rw [← hSession]; decide +kernel)
  have othersFresh : Fresh (stampsFrom 9) session.transcriptStore.nodes :=
    stampsFrom_fresh (by rw [← hSession]; decide +kernel)
  obtain ⟨recovered, closing, rest, loaded, appended, live, through, _⟩ :=
    interrupt_agrees_with_recovery driven busy nothing fresh othersFresh "s"
  exact ⟨session, recovered, closing, rest, running, loaded, appended, live, through⟩

end AgentSession

end PiRelay.Session
