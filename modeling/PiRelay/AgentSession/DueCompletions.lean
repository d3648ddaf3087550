import PiRelay.AgentCore.TurnGrammar
import PiRelay.AgentSession.ReportedOnce

/-! No event is lost. Where nobody interrupts, no output is cut off, the runtime is
kept and the calls of a message are distinct, every completion that waits is on its
way through the core: notified, or stored behind an open tool of the running batch.
A drive then shows it in the transcript, or leaves it with a batch that is still
waiting for another tool. -/
namespace PiRelay.Session

open AgentVocab AgentCore AgentCoreLoop RunningTool List Option
open Library (Machine)

/-- What the ledger keeps of a notified completion. -/
def RecordedCompletion.fromEvent : AgentEvent → Option RecordedCompletion
  | .modelCompleted actionId turnId _ => some (.modelCompleted actionId turnId)
  | .modelFailed actionId turnId error => some (.modelFailed actionId turnId error)
  | .toolCompleted actionId turnId result =>
    some (.toolCompleted actionId turnId result.toolCallId result.toolName)
  | _ => none

variable {recorded : RecordedCompletion}

variable {event : AgentEvent}

theorem RecordedCompletion.target_of_fromEvent
    (hEvent : fromEvent event = some recorded) : event.target = some recorded.target := by
  cases event with
  | modelCompleted | modelFailed | toolCompleted =>
    cases hEvent
    rfl
  | _ => cases hEvent

theorem RecordedCompletion.fromEvent_of_fromInput {input : AgentInput}
    (reports : fromInput input = some recorded) :
    ∃ event, input.completion = some event ∧ fromEvent event = some recorded := by
  cases input with
  | modelCompleted | modelFailed | toolCompleted =>
    cases reports
    exact ⟨_, rfl, rfl⟩
  | _ => cases reports

/-- The batch has the result the completion brought. -/
def Buffered (recorded : RecordedCompletion) (turnId : TurnId) (tools : List RunningTool)
    (index : Nat) : Prop :=
  ∃ tool ∈ tools.drop index, tool.hasResult = true ∧ tool.target turnId = recorded.target

/-- Where a completion is that waits for its event, in the course of a drive. -/
inductive Due (recorded : RecordedCompletion) (loop : AgentCoreLoop) : Prop where
  | model {event : AgentEvent} (notified : loop.mailbox.notifications = [event])
      (brings : RecordedCompletion.fromEvent event = some recorded)
      (running : loop.state = .runningModel recorded.target.turnId recorded.target.actionId)
      (noItems : loop.transcriptItemOutbox = [])
  | tool {turnId : TurnId} {tools : List RunningTool} {index : Nat}
      (running : loop.state = .runningTools turnId tools index)
      (held : (∃ event ∈ loop.mailbox.notifications,
          RecordedCompletion.fromEvent event = some recorded) ∨
        Buffered recorded turnId tools index)
      (isTool : recorded.target.tool ≠ none)
      (results : ∀ item ∈ loop.transcriptItemOutbox, ∃ result, item = .toolResult result)
      (noActions : loop.actionOutbox = [])
  | shown (accepted : recorded.acceptedBy loop.transcriptItemOutbox = true)

theorem RecordedCompletion.acceptedBy_append {items : List TranscriptItem}
    (accepted : recorded.acceptedBy items) (more : List TranscriptItem) :
    recorded.acceptedBy (items ++ more) := by
  cases recorded with
  | modelFailed =>
    rw [acceptedBy, contains_iff_mem] at accepted ⊢
    exact mem_append_left _ accepted
  | toolCompleted =>
    rw [acceptedBy] at accepted ⊢
    rw [any_append, accepted, Bool.true_or]
  | modelCompleted =>
    rw [acceptedBy] at accepted ⊢
    split at accepted
    · cases accepted
    · rename_i position hPosition
      rw [findIdx?_append, hPosition, some_or]
      have inRange : position + 1 ≤ items.length := (findIdx?_eq_some_iff_getElem.mp hPosition).1
      simp only
      rw [drop_append_of_le_length inRange, findSome?_append, beq_iff_eq.mp accepted]
      simp

theorem RecordedCompletion.acceptedBy_prepend (isTool : recorded.target.tool ≠ none)
    {items : List TranscriptItem} (accepted : recorded.acceptedBy items)
    (before : List TranscriptItem) : recorded.acceptedBy (before ++ items) := by
  cases recorded with
  | modelCompleted | modelFailed => exact absurd rfl isTool
  | toolCompleted =>
    rw [acceptedBy] at accepted ⊢
    rw [any_append, accepted, Bool.or_true]

variable {turnId : TurnId}

theorem acceptedBy_of_taken {tool : RunningTool} {taken : List RunningTool}
    (mem : tool ∈ taken) (full : tool.hasResult) (keyed : tool.Keyed)
    (same : tool.target turnId = recorded.target) :
    recorded.acceptedBy ((taken.filterMap RunningTool.result).map .toolResult) := by
  obtain ⟨result, hResult⟩ := isSome_iff_exists.mp full
  have hKey := keyed result hResult
  cases recorded with
  | modelCompleted | modelFailed =>
    injection same with _ _ hTool
    cases hTool
  | toolCompleted _ _ toolCallId toolName =>
    injection same with _ _ hTool
    injection hTool with hTool
    injection hTool with hId hName
    injection hKey with hResultId hResultName
    rw [RecordedCompletion.acceptedBy, List.any_eq_true]
    refine ⟨.toolResult result, ?_, ?_⟩
    · exact mem_map_of_mem (mem_filterMap.mpr ⟨tool, mem, hResult⟩)
    · show (result.toolCallId == toolCallId && result.toolName == toolName)
      rw [hResultId, hResultName, ← hId, ← hName]
      simp

section Batch

variable {recorded : RecordedCompletion} {turnId : TurnId} {tools : List RunningTool}
  {index position : Nat} {tool : RunningTool} {result : ToolResultMessage}

theorem Buffered.store (hPosition : tools.findIdx? (·.answeredBy result) = some position)
    (hTool : tools[position]? = some tool) (behind : index ≤ position)
    (unanswered : tool.result = none)
    (held : RecordedCompletion.fromEvent (.toolCompleted tool.actionId turnId result) = some recorded ∨
      Buffered recorded turnId tools index) :
    Buffered recorded turnId (tools.modify position (RunningTool.store result)) index := by
  rcases held with brings | ⟨stored, mem, full, same⟩
  · have hSlot : (AgentEvent.toolCompleted tool.actionId turnId result).slot turnId tools =
        some (position, result) := by
      simp [AgentEvent.slot, hPosition, hTool]
    have hTarget := (AgentEvent.target_of_slot hSlot hTool).symm.trans
      (RecordedCompletion.target_of_fromEvent brings)
    refine ⟨tool.store result, ?_, rfl, Option.some.inj hTarget⟩
    apply mem_of_getElem? (i := position - index)
    rw [getElem?_drop, Nat.add_sub_cancel' behind, getElem?_modify_eq, hTool]
    rfl
  · obtain ⟨offset, hOffset⟩ := mem_iff_getElem?.mp mem
    rw [getElem?_drop] at hOffset
    have elsewhere : position ≠ index + offset := by
      rintro rfl
      cases hTool.symm.trans hOffset
      rw [hasResult, unanswered] at full
      cases full
    refine ⟨stored, ?_, full, same⟩
    apply mem_of_getElem? (i := offset)
    rw [getElem?_drop, getElem?_modify_ne _ _ elsewhere, hOffset]

theorem Buffered.advance {answered : List RunningTool} (inRange : index ≤ answered.length)
    (keyed : ∀ tool ∈ answered, tool.Keyed) (buffered : Buffered recorded turnId answered index) :
    recorded.acceptedBy (((takenTools answered index).filterMap RunningTool.result).map .toolResult) =
        true ∨
      Buffered recorded turnId (advancedTools answered index)
        (index + (takenTools answered index).length) := by
  obtain ⟨stored, mem, full, same⟩ := buffered
  have split : answered.drop index = takenTools answered index
      ++ answered.drop (index + (takenTools answered index).length) := by
    rw [← drop_drop, takenTools, Library.ReorderBuffer.drop_length_takeWhile,
      takeWhile_append_dropWhile]
  have hKeyed := keyed stored (mem_of_mem_drop mem)
  rw [split] at mem
  rcases mem_append.mp mem with taken | left
  · exact .inl (acceptedBy_of_taken taken full hKeyed same)
  · right
    rw [Buffered, advancedTools_drop answered inRange]
    exact ⟨stored, left, full, same⟩

end Batch

/-- The loop within an uninterrupted drive that began with these pending requests. -/
structure Uninterrupted (pending : List CompletionTarget) (loop : AgentCoreLoop) : Prop where
  accounts : Accounts pending loop
  quiet : loop.mailbox.interruptRequested = false
  waits : loop.state.Waits
  keyed : KeyedTools loop.state
  uncanceled : ∀ turnId, .cancelTurn turnId ∉ loop.actionOutbox

namespace Uninterrupted

variable {pending : List CompletionTarget} {loop : AgentCoreLoop}

section

variable (holds : Uninterrupted pending loop)
include holds

theorem driveOnce : Uninterrupted pending loop.driveOnce.1 := by
  have accounts := holds.accounts.driveOnce
  rcases hNext : loop.nextEvent with ⟨_ | event, mailbox⟩
  · have takes := takes_of_nextEvent hNext
    rw [driveOnce_of_none hNext] at accounts ⊢
    exact
      { accounts
        quiet := takes.quiet
        waits := holds.waits
        keyed := holds.keyed
        uncanceled := holds.uncanceled }
  · have takes := takes_of_nextEvent hNext
    rw [driveOnce_of_some hNext] at accounts ⊢
    refine
      { accounts
        quiet := takes.quiet
        waits := holds.waits.step event loop.nextActionId
        keyed := holds.keyed.step event loop.nextActionId
        uncanceled := ?_ }
    intro turnId canceled
    rcases mem_append.mp canceled with old | new
    · exact holds.uncanceled turnId old
    · rcases AgentState.step_cases loop.state event loop.nextActionId with ignored | fires
      · rw [ignored] at new
        cases new
      · generalize loop.state.step event loop.nextActionId = transition at fires new
        have hQuiet := holds.quiet
        generalize loop.state = state at fires takes
        cases fires with
        | finish | fail | recordResult | interruptReady => cases new
        | startTools =>
          rw [startTools_actions] at new
          obtain ⟨_, _, same⟩ := mem_map.mp new
          cases same
        | interruptModel | interruptTools =>
          cases takes with
          | interrupt _ requested => rw [hQuiet] at requested; cases requested
          | notification _ first =>
            exact absurd (holds.accounts.completions _ (first ▸ mem_cons_self))
              (by simp [AgentEvent.isCompletion])
        | _ =>
          cases mem_singleton.mp new

theorem drive : Uninterrupted pending loop.drive :=
  driveLoop.run_invariant (fun _ holds => holds.driveOnce) holds

theorem settled_of_ready (ready : loop.state = .readyToContinue turnId) :
    notifiedTargets loop.mailbox = [] := by
  cases holds.accounts.balanced with
  | live _ balance =>
    rw [ready] at balance
    exact (append_eq_nil_iff.mp balance.eq_nil).2
  | cleared _ ending =>
    rcases ending with requested | idle
    · rw [holds.quiet] at requested
      cases requested
    · rw [ready] at idle
      cases idle

theorem fires {rest : List AgentEvent}
    (notified : loop.mailbox.notifications = event :: rest) (busy : loop.state ≠ .idle) :
    AgentState.Fires loop.nextActionId loop.state event
      (loop.state.step event loop.nextActionId) := by
  have completion := holds.accounts.completions event (notified ▸ mem_cons_self)
  obtain ⟨target, hTarget⟩ :=
    isSome_iff_exists.mp (AgentEvent.isCompletion_iff_target.mp completion)
  apply AgentState.fires_of_actsOn _ hTarget
  rw [AgentState.actsOn_iff_mem_waitsFor holds.accounts.distinct]
  cases holds.accounts.balanced with
  | live _ balance =>
    apply balance.subset
    rw [notifiedTargets, notified, filterMap_cons_some hTarget]
    exact mem_append_right _ (.head _)
  | cleared _ ending =>
    rcases ending with requested | idle
    · rw [holds.quiet] at requested
      cases requested
    · exact absurd idle busy

end

end Uninterrupted

namespace Due

variable {recorded : RecordedCompletion} {pending : List CompletionTarget} {loop : AgentCoreLoop}

theorem driveOnce_model (holds : Uninterrupted pending loop)
    (notified : loop.mailbox.notifications = [event])
    (brings : RecordedCompletion.fromEvent event = some recorded)
    (running : loop.state = .runningModel recorded.target.turnId recorded.target.actionId)
    (noItems : loop.transcriptItemOutbox = []) : Due recorded loop.driveOnce.1 := by
  have hNext : loop.nextEvent = (some event,
      { loop.mailbox with notifications := [], interruptRequested := false }) := by
    simp [nextEvent, Mailbox.nextEvent, holds.quiet, notified]
  rw [driveOnce_of_some hNext]
  apply shown
  rw [AgentCoreLoop.apply, noItems, nil_append]
  have fires := holds.fires notified (by rw [running]; simp)
  generalize loop.state.step event loop.nextActionId = transition at fires
  generalize loop.state = state at fires running
  cases fires with
  | finish turnId =>
    cases brings
    simp [RecordedCompletion.acceptedBy, findIdx?_cons, TranscriptItem.turnId]
  | startTools turnId _ _ someCalls =>
    cases brings
    obtain ⟨_, _, hCalls⟩ := exists_cons_of_ne_nil someCalls
    simp [RecordedCompletion.acceptedBy, findIdx?_cons, findSome?_cons,
      TranscriptItem.turnId, startTools_items, hCalls]
  | fail =>
    cases brings
    simp [RecordedCompletion.acceptedBy]
  | recordResult => cases running
  | _ => cases brings

theorem driveOnce_tool (holds : Uninterrupted pending loop) {tools : List RunningTool} {index : Nat}
    (running : loop.state = .runningTools turnId tools index)
    (held : (∃ event ∈ loop.mailbox.notifications,
        RecordedCompletion.fromEvent event = some recorded) ∨
      Buffered recorded turnId tools index) (isTool : recorded.target.tool ≠ none)
    (results : ∀ item ∈ loop.transcriptItemOutbox, ∃ result, item = .toolResult result)
    (noActions : loop.actionOutbox = []) : Due recorded loop.driveOnce.1 := by
  have after := holds.driveOnce
  rcases hNext : loop.nextEvent with ⟨next, mailbox⟩
  have takes := takes_of_nextEvent hNext
  rw [running] at takes
  obtain ⟨_, ⟨rfl, none, -⟩ | ⟨event, rfl, notified⟩⟩ := takes.runningTools_cases holds.quiet
  · rw [driveOnce_of_none hNext]
    refine .tool running ?_ isTool results noActions
    rcases held with ⟨event, mem, _⟩ | buffered
    · rw [none] at mem
      cases mem
    · exact .inr buffered
  · rw [driveOnce_of_some hNext] at after ⊢
    have fires := holds.fires notified (by rw [running]; simp)
    have keyed := holds.keyed
    rw [running] at fires keyed after ⊢
    generalize hStep : (AgentState.runningTools turnId tools index).step event loop.nextActionId =
      transition at fires after ⊢
    cases fires with
    | interruptTools =>
      exact absurd (holds.accounts.completions _ (notified ▸ mem_cons_self))
        (by simp [AgentEvent.isCompletion])
    | recordResult _ _ _ position tool result hPosition hTool behind unanswered =>
      have inRange : index ≤ (tools.modify position (store result)).length := by
        rw [length_modify]
        exact Nat.le_of_lt (Nat.lt_of_le_of_lt behind (List.getElem?_eq_some_iff.mp hTool).1)
      have hKeyed := keyed_modify keyed hPosition
      have now : (∃ event ∈ mailbox.notifications,
            RecordedCompletion.fromEvent event = some recorded) ∨
          Buffered recorded turnId (tools.modify position (store result)) index := by
        rcases held with ⟨other, mem, brings⟩ | buffered
        · rw [notified] at mem
          rcases mem_cons.mp mem with rfl | later
          · exact .inr (.store hPosition hTool behind unanswered (.inl brings))
          · exact .inl ⟨other, later, brings⟩
        · exact .inr (.store hPosition hTool behind unanswered (.inr buffered))
      have placed : recorded.acceptedBy (((takenTools (tools.modify position
            (store result)) index).filterMap RunningTool.result).map .toolResult) ∨
          ((∃ event ∈ mailbox.notifications, RecordedCompletion.fromEvent event = some recorded) ∨
            Buffered recorded turnId (advancedTools (tools.modify position (store result)) index)
              (index + (takenTools (tools.modify position (store result))
                index).length)) := by
        rcases now with waits | buffered
        · exact .inr (.inl waits)
        · rcases buffered.advance inRange hKeyed with accepted | still
          · exact .inl accepted
          · exact .inr (.inr still)
      rcases placed with accepted | waits
      · apply shown
        rw [AgentCoreLoop.apply, AgentState.recordResult_eq]
        exact RecordedCompletion.acceptedBy_prepend isTool accepted _
      · have hLength := advancedTools_length (tools.modify position (store result)) index
        rw [length_modify] at hLength
        have hState := congrArg Transition.state
          (AgentState.recordResult_eq tools turnId index position result loop.nextActionId)
        simp only at hState
        split at hState
        · rename_i finished
          exfalso
          rcases waits with ⟨other, mem, brings⟩ | ⟨stored, mem, _⟩
          · have none := after.settled_of_ready hState
            have listed : recorded.target ∈ notifiedTargets mailbox := mem_filterMap.mpr
                ⟨other, mem, RecordedCompletion.target_of_fromEvent brings⟩
            have hMailbox : notifiedTargets mailbox = [] := none
            rw [hMailbox] at listed
            cases listed
          · rw [finished, ← hLength, drop_length] at mem
            cases mem
        · refine .tool hState waits isTool ?_ ?_
          · intro item mem
            rcases mem_append.mp mem with old | new
            · exact results item old
            · rw [AgentState.recordResult_eq] at new
              obtain ⟨found, _, rfl⟩ := mem_map.mp new
              exact ⟨found, rfl⟩
          · show loop.actionOutbox ++ (AgentState.recordResult turnId tools index position result
              loop.nextActionId).actions = []
            rw [noActions, AgentState.recordResult_eq]
            rfl

section

variable (due : Due recorded loop)
include due

section

variable (holds : Uninterrupted pending loop)
include holds

theorem driveOnce : Due recorded loop.driveOnce.1 := by
  cases due with
  | model notified brings running noItems => exact driveOnce_model holds notified brings running noItems
  | tool running held isTool results noActions =>
    exact driveOnce_tool holds running held isTool results noActions
  | shown accepted =>
    obtain ⟨_, hOnce, _⟩ := loop.driveOnce_cases
    rw [hOnce]
    exact shown (RecordedCompletion.acceptedBy_append accepted _)

theorem drive : Due recorded loop.drive := by
  have both := driveLoop.run_invariant
    (motive := fun loop => Uninterrupted pending loop ∧ Due recorded loop)
    (fun _ both => ⟨both.1.driveOnce, both.2.driveOnce both.1⟩) ⟨holds, due⟩
  exact both.2

theorem drive_cases :
    recorded.acceptedBy loop.drive.transcriptItemOutbox ∨
      ∃ turnId tools index, loop.drive.state = .runningTools turnId tools index ∧
        Buffered recorded turnId tools index ∧ recorded.target.tool ≠ none ∧
        (∀ item ∈ loop.drive.transcriptItemOutbox, ∃ result, item = .toolResult result) ∧
        loop.drive.actionOutbox = [] := by
  have settled : loop.drive.isReadyToContinue = false → loop.drive.mailbox.notifications = [] := by
    intro notReady
    obtain ⟨_, _, takes⟩ := loop.drive_exhausted notReady
    exact takes.settled_of_none
  cases due.drive holds with
  | shown accepted => exact .inl accepted
  | model notified _ running =>
    have none := settled (by rw [isReadyToContinue, running])
    rw [notified] at none
    cases none
  | tool running held isTool results noActions =>
    right
    refine ⟨_, _, _, running, ?_, isTool, results, noActions⟩
    rcases held with ⟨event, mem, _⟩ | buffered
    · rw [settled (by rw [isReadyToContinue, running])] at mem
      cases mem
    · exact buffered

end

end

end Due

/-- No interrupt, no cut-off output, the runtime kept, and messages with distinct
calls. -/
def SessionCall.Plain : SessionCall → Prop
  | .enqueueInput input => input ≠ .interrupt
  | .enqueueSessionInput (.modelCompleted _ _ assistant) _ =>
    (assistant.toolCalls.map ToolCall.key).Nodup
  | .enqueueSessionInput (.modelMaxOutputTokens _ _ _ _ _) _ => False
  | .drive _ | .drainPendingInputs | .drainActions | .drainEvents => True
  | .resumeModelTurn _ _ _ _ | .restoreCompactedRuntime _ _ _ => False

theorem foldl_drainCoreAction_waiting {actions : List AgentAction}
    (uncanceled : ∀ turnId, .cancelTurn turnId ∉ actions) (session : AgentSession) :
    (actions.foldl AgentSession.drainCoreAction session).waiting = session.waiting := by
  induction actions generalizing session with
  | nil => rfl
  | cons action _ ih =>
    rw [foldl_cons, ih fun turnId later => uncanceled turnId (mem_cons_of_mem _ later)]
    cases action with
    | cancelTurn turnId => exact absurd (.head _) (uncanceled turnId)
    | requestModel | requestTool => rfl

theorem drive_waiting {session : AgentSession}
    (uncanceled : ∀ turnId, .cancelTurn turnId ∉ session.core.drive.actionOutbox)
    (stamps : Nat → EntryStamp) :
    (session.drive stamps).waiting = session.waiting.filter fun recorded =>
      !recorded.acceptedBy session.core.drive.transcriptItemOutbox
        && recorded.shouldWaitForMoreItems session.core.drive.transcriptItemOutbox
          session.outstandingActions.pending := by
  exact foldl_drainCoreAction_waiting uncanceled _

theorem waits_of_buffered {pending : List CompletionTarget} {loop : AgentCoreLoop}
    (holds : Uninterrupted pending loop) {tools : List RunningTool} {index : Nat}
    (running : loop.drive.state = .runningTools turnId tools index)
    (buffered : Buffered recorded turnId tools index) (isTool : recorded.target.tool ≠ none)
    (results : ∀ item ∈ loop.drive.transcriptItemOutbox, ∃ result, item = .toolResult result)
    (noActions : loop.drive.actionOutbox = []) :
    recorded.shouldWaitForMoreItems loop.drive.transcriptItemOutbox pending := by
  have balance := holds.accounts.drive_perm
  rw [noActions] at balance
  have someOpen : ∃ target ∈ pending, target.turnId = turnId := by
    have waited : loop.drive.state.waitsFor ≠ [] := by
      intro nothing
      exact holds.drive.waits nothing turnId tools index running
    obtain ⟨target, _, hWaits⟩ := exists_cons_of_ne_nil waited
    have mem : target ∈ loop.drive.state.waitsFor := hWaits ▸ mem_cons_self
    refine ⟨target, balance.symm.subset mem, ?_⟩
    rw [running] at mem
    obtain ⟨_, _, rfl⟩ := mem_map.mp mem
    rfl
  obtain ⟨_, _, _, same⟩ := buffered
  cases recorded with
  | modelCompleted | modelFailed => exact absurd rfl isTool
  | toolCompleted =>
    injection same with _ hTurn _
    obtain ⟨target, mem, hTarget⟩ := someOpen
    rw [RecordedCompletion.shouldWaitForMoreItems, Bool.and_eq_true, Bool.not_eq_true',
      List.any_eq_false, List.any_eq_true]
    refine ⟨?_, target, mem, ?_⟩
    · intro item shown
      obtain ⟨result, rfl⟩ := results item shown
      exact Bool.false_ne_true
    · rw [hTarget, ← hTurn]
      exact beq_self_eq_true _

namespace Watched

def plainRuns : Machine Watched SessionCall := runs.guarded fun _ call => call.Plain

structure Unlost (watched : Watched) : Prop where
  agrees : watched.session.LedgerAgrees
  bounded : watched.session.LedgerBounded
  quiet : watched.session.core.mailbox.interruptRequested = false
  waits : watched.session.core.state.Waits
  keyed : KeyedTools watched.session.core.state
  due : ∀ recorded ∈ watched.session.waiting, Due recorded watched.session.core
  unlost : ∀ completion ∈ watched.accepted, completion.event ∈ watched.emitted ∨
    ∃ recorded ∈ watched.session.waiting, completion.recorded = some recorded
  unreplaced : watched.replacedAt = 0

namespace Unlost

variable {watched : Watched} {after : AgentSession}

theorem uninterrupted (holds : watched.Unlost) :
    Uninterrupted watched.session.outstandingActions.pending watched.session.core :=
  { holds with
    accounts := holds.agrees.accounts
    uncanceled := by simp [holds.agrees.drained] }

theorem of_same (holds : watched.Unlost) (agrees : after.LedgerAgrees)
    (bounded : after.LedgerBounded) (hWaiting : after.waiting = watched.session.waiting)
    (hEvents : after.eventOutbox = watched.session.eventOutbox)
    (hState : after.core.state = watched.session.core.state)
    (hNotified : after.core.mailbox.notifications = watched.session.core.mailbox.notifications)
    (hFlag : after.core.mailbox.interruptRequested =
      watched.session.core.mailbox.interruptRequested) : (watched.move after).Unlost := by
  have hEmitted : (watched.move after).emitted = watched.emitted := by
    rw [emitted, hEvents]
    rfl
  refine
    { agrees
      bounded
      quiet := hFlag.trans holds.quiet
      waits := by rw [hState]; exact holds.waits
      keyed := by rw [hState]; exact holds.keyed
      due := ?_
      unlost := by rw [hEmitted, hWaiting]; exact holds.unlost
      unreplaced := holds.unreplaced }
  rw [hWaiting]
  intro recorded mem
  cases holds.due recorded mem with
  | shown accepted =>
    rw [holds.bounded.noItems, Reporting.acceptedBy_nil] at accepted
    cases accepted
  | model notified brings running =>
    exact .model (hNotified.trans notified) brings (hState.trans running) bounded.noItems
  | tool running held isTool =>
    refine .tool (hState.trans running) (by rw [hNotified]; exact held) isTool ?_ agrees.drained
    rw [bounded.noItems]
    simp

variable {recorded : RecordedCompletion} {input : AgentInput}

section

variable (holds : watched.Unlost)
include holds

theorem drive_cases (stamps : Nat → EntryStamp) (mem : recorded ∈ watched.session.waiting) :
    recorded.sessionEvent ∈ (watched.session.drive stamps).eventOutbox ∨
      (recorded ∈ (watched.session.drive stamps).waiting ∧ ∃ turnId tools index,
        (watched.session.drive stamps).core.state = .runningTools turnId tools index ∧
          Buffered recorded turnId tools index ∧ recorded.target.tool ≠ none) := by
  obtain ⟨_, _, hEvents, _⟩ := watched.session.drive_events stamps
  cases hAccepted : recorded.acceptedBy watched.session.core.drive.transcriptItemOutbox with
  | true =>
    left
    rw [hEvents]
    apply mem_append_left
    apply mem_append_right
    exact mem_map_of_mem (mem_filter.mpr ⟨mem, hAccepted⟩)
  | false =>
    right
    rcases (holds.due recorded mem).drive_cases holds.uninterrupted with
      accepted | ⟨turnId, tools, index, running, buffered, isTool, results, noActions⟩
    · rw [hAccepted] at accepted
      cases accepted
    · have waits := waits_of_buffered holds.uninterrupted running buffered isTool results noActions
      rw [drive_waiting holds.uninterrupted.drive.uncanceled, AgentSession.drive_core]
      exact ⟨mem_filter.mpr ⟨mem, by rw [hAccepted, waits]; rfl⟩, turnId, tools, index,
        running, buffered, isTool⟩

theorem drive (stamps : Nat → EntryStamp) :
    (watched.move (watched.session.drive stamps)).Unlost := by
  have driven := holds.uninterrupted.drive
  obtain ⟨_, _, hEvents, _⟩ := watched.session.drive_events stamps
  refine
    { agrees := holds.agrees.drive stamps
      bounded := holds.bounded.drive stamps
      quiet := by rw [AgentSession.drive_core]; exact driven.quiet
      waits := by rw [AgentSession.drive_core]; exact driven.waits
      keyed := by rw [AgentSession.drive_core]; exact driven.keyed
      due := ?_
      unlost := ?_
      unreplaced := holds.unreplaced }
  · intro recorded mem
    have kept := mem
    rw [drive_waiting driven.uncanceled, mem_filter] at kept
    have unshown := (Bool.and_eq_true_iff.mp kept.2).1
    rcases (holds.due recorded kept.1).drive_cases holds.uninterrupted with
      accepted | ⟨turnId, tools, index, running, buffered, isTool, _⟩
    · rw [accepted] at unshown
      cases unshown
    · rw [AgentSession.drive_core]
      exact .tool running (.inr buffered) isTool (by simp) rfl
  · intro completion accepted
    rcases holds.unlost completion accepted with reported | ⟨recorded, mem, same⟩
    · left
      rcases mem_append.mp reported with drained | undrained
      · exact mem_append_left _ drained
      · apply mem_append_right
        rw [hEvents, append_assoc, append_assoc]
        exact mem_append_left _ undrained
    · rcases holds.drive_cases stamps mem with event | ⟨waits, _⟩
      · left
        rw [AcceptedCompletion.event_of_recorded same] at event
        exact mem_append_right _ event
      · exact .inr ⟨recorded, waits, same⟩

theorem due_of_accepted (reports : RecordedCompletion.fromInput input = some recorded)
    (isPending : recorded.target ∈ watched.session.outstandingActions.pending) :
    Due recorded (watched.session.core.enqueueInput input) := by
  obtain ⟨event, hEvent, brings⟩ := RecordedCompletion.fromEvent_of_fromInput reports
  have hNotified : (watched.session.core.mailbox.pushInput input).notifications =
      watched.session.core.mailbox.notifications ++ [event] := by
    rw [Mailbox.pushInput_notifications, hEvent]
    rfl
  cases hTool : recorded.target.tool with
  | none =>
    have hTarget : recorded.target =
        { actionId := recorded.target.actionId, turnId := recorded.target.turnId, tool := none } := by
      rw [← hTool]
    obtain ⟨running, settled, _⟩ := holds.bounded.lone_model (hTarget ▸ isPending)
    rw [settled] at hNotified
    exact .model hNotified brings running holds.bounded.noItems
  | some =>
    obtain ⟨_, _, waited⟩ := holds.bounded.backed.of_pending isPending
    have isTool : recorded.target.tool ≠ none := by
      rw [hTool]
      simp
    cases hState : watched.session.core.state with
    | idle | readyToContinue => rw [hState] at waited; cases waited
    | runningModel =>
      rw [hState] at waited
      rw [mem_singleton.mp waited] at hTool
      cases hTool
    | runningTools =>
      refine .tool hState (.inl ⟨event, ?_, brings⟩) isTool ?_ holds.agrees.drained
      · show event ∈ (watched.session.core.mailbox.pushInput input).notifications
        rw [hNotified]
        exact mem_append_right _ (.head _)
      · show ∀ item ∈ watched.session.core.transcriptItemOutbox, _
        rw [holds.bounded.noItems]
        simp

theorem due_of_waiting {other : RecordedCompletion}
    (isPending : recorded.target ∈ watched.session.outstandingActions.pending)
    (mem : other ∈ watched.session.waiting) :
    Due other (watched.session.core.enqueueInput input) := by
  cases holds.due other mem with
  | shown accepted =>
    rw [holds.bounded.noItems, Reporting.acceptedBy_nil] at accepted
    cases accepted
  | model notified _ running =>
    rw [(holds.bounded.settled_of_runningModel running isPending).1] at notified
    cases notified
  | tool running held isTool results noActions =>
    refine .tool running ?_ isTool results noActions
    rcases held with ⟨event, notified, brings⟩ | buffered
    · left
      refine ⟨event, ?_, brings⟩
      show event ∈ (watched.session.core.mailbox.pushInput input).notifications
      rw [Mailbox.pushInput_notifications]
      exact mem_append_left _ notified
    · exact .inr buffered

theorem enqueue (noInterrupt : input ≠ .interrupt) (distinct : InputDistinct input) :
    ({ watched with
      session := watched.session.enqueueAccepted input
      accepted := watched.accepted ++ (Reporting.inputAccepts watched input).toList } :
      Watched).Unlost := by
  have agrees := holds.agrees.enqueueAccepted distinct
  have bounded := holds.bounded.enqueueAccepted input
  have enqueues := watched.session.enqueueAccepted_enqueues input
  generalize watched.session.enqueueAccepted input = enqueued at agrees bounded enqueues
  cases enqueues with
  | interrupt => exact absurd rfl noInterrupt
  | queued noReport =>
    rw [Reporting.inputAccepts_of_queued noReport, toList_none, append_nil]
    apply holds.of_same agrees bounded rfl rfl rfl ?_ ?_
    · show (watched.session.core.mailbox.pushInput input).notifications = _
      rw [Mailbox.pushInput_notifications, RecordedCompletion.completion_of_none noReport]
      simp
    · exact AgentInput.flag_of_ne_interrupt noInterrupt _
  | stale reports stale =>
    rw [Reporting.inputAccepts_of_stale reports stale, toList_none, append_nil]
    exact holds
  | completion reports isPending =>
    obtain ⟨completion, accepts, _, same, _⟩ := Reporting.inputAccepts_of_pending reports isPending
    rw [accepts]
    refine
      { agrees
        bounded
        quiet := (AgentInput.flag_of_ne_interrupt noInterrupt _).trans holds.quiet
        waits := holds.waits
        keyed := holds.keyed
        due := ?_
        unlost := ?_
        unreplaced := holds.unreplaced }
    · intro other mem
      rcases Library.mem_concat.mp mem with old | rfl
      · exact holds.due_of_waiting isPending old
      · exact holds.due_of_accepted reports isPending
    · intro other accepted
      rcases mem_append.mp accepted with old | new
      · rcases holds.unlost other old with reported | ⟨waits, mem, hWaits⟩
        · exact .inl reported
        · exact .inr ⟨waits, mem_append_left _ mem, hWaits⟩
      · rw [toList_some, mem_singleton] at new
        rw [new]
        exact .inr ⟨_, mem_append_right _ (.head _), same⟩

/-- A plain call loses no completion. -/
theorem call {call : SessionCall} (plain : call.Plain) : (watched.call call).Unlost := by
  cases call with
  | enqueueInput input =>
    have enqueued := holds.enqueue plain
    cases input with
    | modelCompleted =>
      rw [Reporting.call_eq_move rfl (by simp) rfl]
      exact holds
    | interrupt => exact absurd rfl plain
    | _ =>
      exact enqueued (.of_plain (by simp))
  | enqueueSessionInput input =>
    cases input with
    | modelCompleted actionId turnId assistant =>
      have noInterrupt : AgentInput.modelCompleted actionId turnId assistant ≠ .interrupt := by
        simp
      apply holds.enqueue noInterrupt
      intro event hEvent
      cases hEvent
      exact plain
    | modelMaxOutputTokens => cases plain
  | drive stamps =>
    rw [Reporting.call_eq_move rfl (by simp) rfl]
    exact holds.drive stamps
  | drainPendingInputs =>
    rw [Reporting.call_eq_move rfl (by simp) rfl]
    exact holds.of_same holds.agrees.drainPendingInputs holds.bounded.drainPendingInputs rfl rfl rfl
      rfl rfl
  | drainActions =>
    rw [Reporting.call_eq_move rfl (by simp) rfl]
    exact holds.of_same ⟨holds.agrees.drained, holds.agrees.accounts⟩
      ⟨holds.bounded.noActions, holds.bounded.noItems, holds.bounded.bounded⟩ rfl rfl rfl rfl rfl
  | drainEvents =>
    have hEmitted : (watched.call .drainEvents).emitted = watched.emitted := by
      simp [Watched.call, emitted, AgentSession.call, AgentSession.drainEvents]
    have hAccepted : (watched.call .drainEvents).accepted = watched.accepted := by
      simp [Watched.call, accepts, SessionCall.completion]
    refine
      { agrees := ⟨holds.agrees.drained, holds.agrees.accounts⟩
        bounded := ⟨holds.bounded.noActions, holds.bounded.noItems, holds.bounded.bounded⟩
        quiet := holds.quiet
        waits := holds.waits
        keyed := holds.keyed
        due := holds.due
        unlost := ?_
        unreplaced := holds.unreplaced }
    rw [hEmitted, hAccepted]
    exact holds.unlost
  | resumeModelTurn | restoreCompactedRuntime => cases plain

end

theorem start : start.Unlost where
  agrees := AgentSession.Constructed.new.ledgerAgrees
  bounded := AgentSession.Constructed.new.ledgerBounded
  quiet := rfl
  waits := fun _ _ _ _ running => by cases running
  keyed := trivial
  due := nofun
  unlost := nofun
  unreplaced := rfl

end Unlost

theorem plainRuns_unlost {watched : Watched} (reaches : plainRuns.Reaches watched) :
    watched.Unlost := by
  apply reaches.invariant
  · rintro watched rfl
    exact .start
  · rintro watched call after _ holds ⟨plain, rfl⟩
    exact holds.call plain

end Watched

end PiRelay.Session
