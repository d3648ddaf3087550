import PiRelay.AgentStore.Delegations
import PiRelay.Library.Machine

/-! The life of a delegation under every order of the calls that create and end one.
Each call is a transaction; its compare-and-set decides whether it moves the row. -/
namespace PiRelay.Store

open DelegationStore List

open Library (Machine Evolves updateWhere_eq_some_iff)

/-- How a status may change: through a teardown, or by the barrier. -/
inductive LifecycleMove (before after : DelegationRow) : Prop where
  | stays (status : after.status = before.status)
      (target : after.teardownTarget = before.teardownTarget)
  | cancels (running : before.status = .running) (cancelling : after.status = .cancelling)
      (target : after.teardownTarget = some .cancelled ∨ after.teardownTarget = some .failed)
  | tornDown (cancelling : before.status = .cancelling)
      (target : before.teardownTarget = some after.status) (settled : after.teardownTarget = none)
  | finishes (running : before.status = .running)
      (finished : after.status = .done ∨ after.status = .doneWithFailures)
      (target : after.teardownTarget = before.teardownTarget)

/-- What identifies a delegation stays. -/
structure DelegationMove (before after : DelegationRow) : Prop where
  id : after.id = before.id
  attemptId : after.attemptId = before.attemptId
  parentSessionId : after.parentSessionId = before.parentSessionId
  expectedSubagents : after.expectedSubagents = before.expectedSubagents
  move : LifecycleMove before after

theorem DelegationMove.refl (row : DelegationRow) : DelegationMove row row :=
  ⟨rfl, rfl, rfl, rfl, .stays rfl rfl⟩

/-- A target is set as long as the teardown lasts, and it is one that may be asked for. -/
structure SoundTarget (row : DelegationRow) : Prop where
  cancelling : row.teardownTarget.isSome = true ↔ row.status = .cancelling
  target : ∀ target, row.teardownTarget = some target → target = .cancelled ∨ target = .failed

variable {before after : DelegationRow}

theorem SoundTarget.move (sound : SoundTarget before) (move : DelegationMove before after) :
    SoundTarget after := by
  cases move.move with
  | stays status target =>
    constructor
    · rw [status, target]
      exact sound.cancelling
    · rw [target]
      exact sound.target
  | cancels _ cancelling target =>
    constructor
    · rcases target with cancelled | failed
      · simp [cancelled, cancelling]
      · simp [failed, cancelling]
    · intro other isTarget
      rw [isTarget] at target
      exact target.imp Option.some.inj Option.some.inj
  | tornDown _ target settled =>
    constructor
    · rcases sound.target _ target with cancelled | failed
      · simp [settled, cancelled]
      · simp [settled, failed]
    · intro other isTarget
      rw [settled] at isTarget
      cases isTarget
  | finishes running finished target =>
    have unset : before.teardownTarget = none := by
      rw [← Option.not_isSome_iff_eq_none, sound.cancelling, running]
      nofun
    constructor
    · rcases finished with done | failures
      · simp [target, unset, done]
      · simp [target, unset, failures]
    · intro other isTarget
      rw [target, unset] at isTarget
      cases isTarget

/-- A terminal status does not change, and a delegation that has left its running
status never returns to it. -/
theorem LifecycleMove.terminal (move : LifecycleMove before after)
    (terminal : before.status.isTerminal) : after.status = before.status := by
  cases move with
  | stays status => exact status
  | cancels was | finishes was | tornDown was =>
    rw [was] at terminal
    cases terminal

theorem DelegationMove.notRunning (sound : SoundTarget before) (move : DelegationMove before after)
    (ended : before.status ≠ .running) : after.status ≠ .running := by
  cases move.move with
  | stays status =>
    rw [status]
    exact ended
  | cancels running | finishes running => exact absurd running ended
  | tornDown _ target =>
    rcases sound.target _ target with cancelled | failed
    · rw [cancelled]
      nofun
    · rw [failed]
      nofun

/-- A delegation as it is inserted. -/
structure NewDelegation (delegations : List DelegationRow) (row : DelegationRow) : Prop where
  fresh : ∀ other ∈ delegations, other.id ≠ row.id
  running : row.status = .running
  target : row.teardownTarget = none

/-- What a transaction does to the delegations. -/
def DelegationsStep (before after : List DelegationRow) : Prop :=
  Evolves DelegationMove (NewDelegation before) before after
    ∧ (after.length = before.length ∨ ∃ row, after = before ++ [row])

theorem DelegationsStep.refl (delegations : List DelegationRow) :
    DelegationsStep delegations delegations :=
  ⟨.refl fun row _ => .refl row, .inl rfl⟩

namespace DelegationStore

variable {store after : DelegationStore}
variable {row : DelegationRow} {target : DelegationStatus}

theorem createDelegationIdempotent_ok {request : CreateDelegationRequest} {drawn : DrawnDelegation}
    (creates : store.createDelegationIdempotent request drawn = .ok (after, row)) :
    after.sessions = store.sessions ∧
      (after.delegations = store.delegations
        ∨ after.delegations = store.delegations ++ [request.row drawn]
          ∧ NewDelegation store.delegations (request.row drawn)) := by
  rw [createDelegationIdempotent] at creates
  iterate 4
    split at creates
    · cases creates
  split at creates
  · split at creates
    · cases creates
    · cases creates
      exact ⟨rfl, .inl rfl⟩
  · split at creates
    · cases creates
    · split at creates
      · cases creates
      · rename_i unused
        cases creates
        refine ⟨rfl, .inr ⟨rfl, ⟨?_, rfl, rfl⟩⟩⟩
        intro other mem same
        exact unused (any_eq_true.mpr ⟨other, mem, beq_iff_eq.mpr same⟩)

theorem moveDelegation_some {admits : DelegationRow → Bool} {change : DelegationRow → DelegationRow}
    (moves : store.moveDelegation admits change = some (after, row)) :
    (∃ prior ∈ store.delegations, admits prior ∧ row = change prior) ∧
      after = { store with
        delegations := store.delegations.map fun row => if admits row then change row else row } := by
  rw [moveDelegation] at moves
  split at moves
  · rename_i prior delegations found update
    cases moves
    obtain ⟨-, rfl⟩ := updateWhere_eq_some_iff.mp update
    exact ⟨⟨prior, mem_of_find?_eq_some found, find?_some found, rfl⟩, rfl⟩
  · cases moves

theorem moveDelegation_step {admits : DelegationRow → Bool} {change : DelegationRow → DelegationRow}
    (moves : store.moveDelegation admits change = some (after, row))
    (step : ∀ row, admits row → DelegationMove row (change row)) :
    DelegationsStep store.delegations after.delegations := by
  obtain ⟨-, rfl⟩ := moveDelegation_some moves
  refine ⟨.of_update (fun row _ _ => .refl row) fun row _ admitted => step row admitted, .inl ?_⟩
  rw [length_map]

theorem beginDelegationTeardown_ok {parentSessionId delegationId attemptId : String} {won : Bool}
    (begins : store.beginDelegationTeardown parentSessionId delegationId attemptId target =
      .ok (after, won)) :
    won = false ∧ after = store
      ∨ won ∧ (target = .cancelled ∨ target = .failed) ∧ ∃ moved row,
          store.moveDelegation
            (fun row => row.isAttempt delegationId attemptId
              && row.parentSessionId == parentSessionId && row.status == .running)
            (fun row => { row with status := .cancelling, teardownTarget := some target }) =
              some (moved, row)
          ∧ after = moved.cancelActiveDelegationChildInputs row := by
  rw [beginDelegationTeardown] at begins
  split at begins
  · cases begins
  · rename_i targeted
    split at begins
    · cases begins
    · split at begins
      · cases begins
        exact .inl ⟨rfl, rfl⟩
      · rename_i moved row moves
        cases begins
        refine .inr ⟨rfl, ?_, moved, row, moves, rfl⟩
        by_cases cancelled : target = .cancelled
        · exact .inl cancelled
        · exact .inr (by simpa [cancelled] using targeted)

theorem beginFailedDelegationLaunch_ok {parentSessionId delegationId attemptId : String}
    {error : LaunchError} {owns : Bool}
    (begins : store.beginFailedDelegationLaunch parentSessionId delegationId attemptId error =
      .ok (after, owns)) :
    owns = false ∧ after = store
      ∨ ∃ moved row,
          store.moveDelegation
            (fun row => row.isAttempt delegationId attemptId
              && row.parentSessionId == parentSessionId
              && (row.status == .running
                || row.status == .cancelling && row.teardownTarget == some .failed
                || row.status == .failed)) (failLaunch error) = some (moved, row)
          ∧ (row.status = .cancelling ∧ owns
              ∧ after = moved.cancelActiveDelegationChildInputs row
            ∨ row.status ≠ .cancelling ∧ owns = false ∧ after = moved) := by
  rw [beginFailedDelegationLaunch] at begins
  split at begins
  · cases begins
  · split at begins
    · cases begins
      exact .inl ⟨rfl, rfl⟩
    · rename_i moved row moves
      split at begins
      · rename_i cancelling
        cases begins
        exact .inr ⟨moved, row, moves, .inl ⟨cancelling, rfl, rfl⟩⟩
      · rename_i other
        cases begins
        exact .inr ⟨_, row, moves, .inr ⟨other, rfl, rfl⟩⟩

theorem finishDelegationTeardown_cases (store : DelegationStore)
    (delegationId attemptId : String) (target : DelegationStatus) :
    store.finishDelegationTeardown delegationId attemptId target = (store, false)
      ∨ ∃ moved row,
          store.moveDelegation
            (fun row => row.isAttempt delegationId attemptId && row.status == .cancelling
              && row.teardownTarget == some target
              && !(store.subagents row.id).any SessionRow.hasQueuedInputs)
            (fun row => { row with status := target, teardownTarget := none }) = some (moved, row)
          ∧ store.finishDelegationTeardown delegationId attemptId target = (moved, true) := by
  rw [finishDelegationTeardown]
  split
  · exact .inl rfl
  · rename_i moved row moves
    exact .inr ⟨moved, row, moves, rfl⟩

theorem finishDelegation_cases (store : DelegationStore) (delegationId attemptId : String)
    (status : DelegationStatus) :
    store.finishDelegation delegationId attemptId status = (store, false)
      ∨ ∃ prior ∈ store.delegations, ∃ moved row,
          (prior.isAttempt delegationId attemptId && prior.status == .running)
          ∧ store.readyToFinish delegationId prior.expectedSubagents
          ∧ store.moveDelegation
              (fun row => row.isAttempt delegationId attemptId && row.status == .running)
              (fun row => { row with status }) = some (moved, row)
          ∧ store.finishDelegation delegationId attemptId status = (moved, true) := by
  rw [finishDelegation]
  split
  · exact .inl rfl
  · rename_i prior found
    have admitted := find?_some found
    split
    · exact .inl rfl
    · rename_i ready
      split
      · exact .inl rfl
      · rename_i moved row moves
        exact .inr ⟨prior, mem_of_find?_eq_some found, moved, row, admitted,
          by simpa using ready, moves, rfl⟩

theorem cancelling_move (running : row.status = .running)
    (targeted : target = .cancelled ∨ target = .failed) :
    DelegationMove row { row with status := .cancelling, teardownTarget := some target } where
  id := rfl
  attemptId := rfl
  parentSessionId := rfl
  expectedSubagents := rfl
  move := .cancels running rfl (targeted.imp (congrArg some) (congrArg some))

theorem failLaunch_move (error : LaunchError) (row : DelegationRow) :
    DelegationMove row (failLaunch error row) := by
  constructor
  · rfl
  · rfl
  · rfl
  · rfl
  · by_cases running : row.status = .running
    · refine .cancels running ?_ (.inr ?_)
      · rw [failLaunch, if_pos running]
      · simp only [failLaunch, if_pos running]
    · refine .stays ?_ ?_
      · rw [failLaunch, if_neg running]
      · simp only [failLaunch, if_neg running]

theorem tornDown_move (cancelling : row.status = .cancelling)
    (targeted : row.teardownTarget = some target) :
    DelegationMove row { row with status := target, teardownTarget := none } where
  id := rfl
  attemptId := rfl
  parentSessionId := rfl
  expectedSubagents := rfl
  move := .tornDown cancelling targeted rfl

theorem finished_move {status : DelegationStatus} (running : row.status = .running)
    (finished : status = .done ∨ status = .doneWithFailures) :
    DelegationMove row { row with status } where
  id := rfl
  attemptId := rfl
  parentSessionId := rfl
  expectedSubagents := rfl
  move := .finishes running finished rfl

end DelegationStore

/-- The tables, with the delegations for which a barrier or a teardown was told that
it had won, newest first. -/
structure DelegationHistory where
  store : DelegationStore
  winners : List String

/-- A call of the daemon. A barrier only ever asks for one of the two completed
statuses; the work of the sessions leaves the delegations alone. -/
inductive DelegationCall where
  | create (request : CreateDelegationRequest) (drawn : DrawnDelegation)
  | beginTeardown (parentSessionId delegationId attemptId : String) (target : DelegationStatus)
  | beginFailedLaunch (parentSessionId delegationId attemptId : String) (error : LaunchError)
  | finishTeardown (delegationId attemptId : String) (target : DelegationStatus)
  | finish (delegationId attemptId : String) (status : DelegationStatus)
      (completes : status = .done ∨ status = .doneWithFailures)
  | sessionWork (sessions : List SessionRow)

namespace DelegationHistory

variable (history : DelegationHistory)

/-- A call that was told whether it had won. -/
def answered (delegationId : String) (answer : DelegationStore × Bool) : DelegationHistory where
  store := answer.1
  winners := if answer.2 then delegationId :: history.winners else history.winners

def call : DelegationCall → DelegationHistory
  | .create request drawn =>
    match history.store.createDelegationIdempotent request drawn with
    | .error _ => history
    | .ok (store, _) => { history with store }
  | .beginTeardown parentSessionId delegationId attemptId target =>
    match history.store.beginDelegationTeardown parentSessionId delegationId attemptId target with
    | .error _ => history
    | .ok answer => history.answered delegationId answer
  | .beginFailedLaunch parentSessionId delegationId attemptId error =>
    match history.store.beginFailedDelegationLaunch parentSessionId delegationId attemptId
        error with
    | .error _ => history
    | .ok (store, _) => { history with store }
  | .finishTeardown delegationId attemptId target =>
    { history with
      store := (history.store.finishDelegationTeardown delegationId attemptId target).1 }
  | .finish delegationId attemptId status _ =>
    history.answered delegationId
      (history.store.finishDelegation delegationId attemptId status)
  | .sessionWork sessions => { history with store := { history.store with sessions } }

/-- Nothing has been delegated yet. -/
def Initial : Prop :=
  history.store.delegations = [] ∧ history.winners = []

def lifecycle : Machine DelegationHistory DelegationCall := .ofCalls Initial call

/-- What a call does: the rows move, and who wins finds its delegation running and
ends that. -/
structure Step (before after : DelegationHistory) : Prop where
  delegations : DelegationsStep before.store.delegations after.store.delegations
  winners : after.winners = before.winners ∨ ∃ prior ∈ before.store.delegations,
    prior.status = .running ∧ after.winners = prior.id :: before.winners
      ∧ ∃ next ∈ after.store.delegations, next.id = prior.id ∧ next.status ≠ .running

theorem Step.quiet {before after : DelegationHistory}
    (delegations : DelegationsStep before.store.delegations after.store.delegations)
    (same : after.winners = before.winners) : Step before after :=
  ⟨delegations, .inl same⟩

variable {row : DelegationRow}

theorem Step.wins {before : DelegationHistory} {delegationId : String} (attemptId : String)
    {admits : DelegationRow → Bool} {change : DelegationRow → DelegationRow}
    {moved store : DelegationStore}
    (moves : before.store.moveDelegation admits change = some (moved, row))
    (fenced : ∀ row, admits row →
      row.isAttempt delegationId attemptId ∧ row.status = .running)
    (step : ∀ row, admits row → DelegationMove row (change row))
    (ends : ∀ row, (change row).status ≠ .running) (same : store.delegations = moved.delegations) :
    Step before (before.answered delegationId (store, true)) := by
  constructor
  · rw [answered, same]
    exact moveDelegation_step moves step
  · obtain ⟨⟨prior, mem, admitted, rfl⟩, hMoved⟩ := moveDelegation_some moves
    obtain ⟨attempt, running⟩ := fenced prior admitted
    rw [DelegationRow.isAttempt, Bool.and_eq_true, beq_iff_eq] at attempt
    refine .inr ⟨prior, mem, running, ?_, change prior, ?_, (step prior admitted).id, ends prior⟩
    · rw [attempt.1]
      rfl
    · rw [answered, same, hMoved]
      refine mem_map.mpr ⟨prior, mem, ?_⟩
      rw [if_pos admitted]

/-- What a call performs: nothing, the creation of a row, or one guarded move of the rows that may
cancel inputs and may tell the caller that it has won. -/
inductive Performs (history : DelegationHistory) : DelegationCall → DelegationHistory → Prop where
  | nothing {call : DelegationCall} : Performs history call history
  | creates {request : CreateDelegationRequest} {drawn : DrawnDelegation} {store : DelegationStore}
      {row : DelegationRow}
      (creates : history.store.createDelegationIdempotent request drawn = .ok (store, row)) :
      Performs history (.create request drawn) { history with store }
  | moves {call : DelegationCall} {admits : DelegationRow → Bool}
      {change : DelegationRow → DelegationRow} {moved : DelegationStore} {row : DelegationRow}
      {after : DelegationHistory}
      (moves : history.store.moveDelegation admits change = some (moved, row))
      (step : ∀ row, admits row = true → DelegationMove row (change row))
      (keeps : ∀ row, (change row).launchKey = row.launchKey ∧
        (change row).launchShape = row.launchShape ∧ (change row).kind = row.kind)
      (ending : after.store = moved ∨ after.store = moved.cancelActiveDelegationChildInputs row)
      (winners : after.winners = history.winners ∨ ∃ delegationId attemptId,
        after.winners = delegationId :: history.winners ∧
        (∀ row, admits row = true →
          row.isAttempt delegationId attemptId = true ∧ row.status = .running) ∧
        ∀ row, (change row).status ≠ .running) :
      Performs history call after
  | settles (sessions : List SessionRow) :
      Performs history (.sessionWork sessions)
        { history with store := { history.store with sessions } }

/-- A call creates a row, makes one guarded move, or does nothing. -/
theorem call_performs (call : DelegationCall) : history.Performs call (history.call call) := by
  cases call with
  | create =>
    rw [DelegationHistory.call]
    split
    · exact .nothing
    · rename_i creates
      exact .creates creates
  | beginTeardown _ _ attemptId =>
    rw [DelegationHistory.call]
    split
    · exact .nothing
    · rename_i answer begins
      obtain ⟨store, _⟩ := answer
      obtain ⟨rfl, rfl⟩ | ⟨rfl, targeted, moved, row, moves, rfl⟩ :=
        beginDelegationTeardown_ok begins
      · exact .nothing
      · refine .moves moves (fun row admitted => ?_) (fun _ => ⟨rfl, rfl, rfl⟩) (.inr rfl)
          (.inr ⟨_, attemptId, rfl, fun row admitted => ?_, fun _ => nofun⟩)
        · rw [Bool.and_eq_true, beq_iff_eq] at admitted
          exact cancelling_move admitted.2 targeted
        · simp only [Bool.and_eq_true, beq_iff_eq] at admitted
          exact ⟨admitted.1.1, admitted.2⟩
  | beginFailedLaunch _ _ _ error =>
    rw [DelegationHistory.call]
    split
    · exact .nothing
    · rename_i store owns begins
      obtain ⟨-, rfl⟩ | ⟨moved, row, moves, ending⟩ := beginFailedDelegationLaunch_ok begins
      · exact .nothing
      · refine .moves moves (fun row _ => failLaunch_move error row)
          (fun _ => ⟨rfl, rfl, rfl⟩) ?_ (.inl rfl)
        exact ending.symm.imp (·.2.2) (·.2.2)
  | finishTeardown delegationId attemptId target =>
    rw [DelegationHistory.call]
    rcases history.store.finishDelegationTeardown_cases delegationId attemptId target with
      missed | ⟨moved, row, moves, finished⟩
    · rw [missed]
      exact .nothing
    · rw [finished]
      refine .moves moves (fun row admitted => ?_) (fun _ => ⟨rfl, rfl, rfl⟩) (.inl rfl) (.inl rfl)
      simp only [Bool.and_eq_true, beq_iff_eq] at admitted
      exact tornDown_move admitted.1.1.2 admitted.1.2
  | finish delegationId attemptId status completes =>
    rw [DelegationHistory.call]
    rcases history.store.finishDelegation_cases delegationId attemptId status with
      missed | ⟨prior, -, moved, row, -, -, moves, finished⟩
    · rw [missed]
      exact .nothing
    · rw [finished]
      refine .moves moves (fun row admitted => ?_) (fun _ => ⟨rfl, rfl, rfl⟩) (.inl rfl)
        (.inr ⟨_, attemptId, rfl, fun row admitted => ?_, fun row => ?_⟩)
      · rw [Bool.and_eq_true, beq_iff_eq] at admitted
        exact finished_move admitted.2 completes
      · simpa only [Bool.and_eq_true, beq_iff_eq] using admitted
      · rcases completes with rfl | rfl <;> nofun
  | sessionWork sessions => exact .settles sessions

/-- The rows of a call that moved them are the moved rows. -/
theorem Performs.delegations {store moved : DelegationStore}
    (ending : store = moved ∨ store = moved.cancelActiveDelegationChildInputs row) :
    store.delegations = moved.delegations := by
  obtain rfl | rfl := ending <;> rfl

theorem call_step (call : DelegationCall) : Step history (history.call call) := by
  have performs := history.call_performs call
  generalize history.call call = after at performs
  cases performs with
  | nothing | settles => exact .quiet (.refl _) rfl
  | creates creates =>
    refine .quiet ?_ rfl
    obtain ⟨-, same | ⟨added, new⟩⟩ := createDelegationIdempotent_ok creates
    · rw [same]
      exact .refl _
    · rw [added]
      refine ⟨.append (fun row _ => .refl row) ?_, .inr ⟨_, rfl⟩⟩
      intro row mem
      rw [mem_singleton.mp mem]
      exact new
  | moves moves step keeps ending winners =>
    have same := Performs.delegations ending
    obtain none | ⟨delegationId, attemptId, won, fenced, ends⟩ := winners
    · refine .quiet ?_ none
      rw [same]
      exact moveDelegation_step moves step
    · obtain ⟨store, winners⟩ := after
      cases won
      exact .wins attemptId moves fenced step ends same

/-- Ids are distinct, targets are sound, and who has won has ended the running of its
delegation. -/
structure Sound (history : DelegationHistory) : Prop where
  distinct : (history.store.delegations.map DelegationRow.id).Nodup
  targets : ∀ row ∈ history.store.delegations, SoundTarget row
  ended : ∀ delegationId ∈ history.winners, ∃ row ∈ history.store.delegations,
    row.id = delegationId ∧ row.status ≠ .running
  once : history.winners.Nodup

namespace Sound

variable {history after : DelegationHistory}

theorem step_distinct (sound : Sound history) (step : Step history after) :
    (after.store.delegations.map DelegationRow.id).Nodup := by
  obtain ⟨evolves, same | ⟨row, added⟩⟩ := step.delegations
  · obtain ⟨change, added, hAfter, moves, -⟩ := evolves
    obtain rfl : added = [] := by
      rw [hAfter, length_append, length_map] at same
      exact length_eq_zero_iff.mp (by omega)
    rw [hAfter, append_nil, map_map]
    have kept : history.store.delegations.map (DelegationRow.id ∘ change) =
        history.store.delegations.map DelegationRow.id :=
      map_congr_left fun row mem => (moves row mem).id
    rw [kept]
    exact sound.distinct
  · have new : NewDelegation history.store.delegations row := by
      obtain ⟨change, _, hAfter, -, new⟩ := evolves
      rw [added] at hAfter
      have lengths := congrArg List.length hAfter
      have one := (append_inj hAfter (by rw [length_map])).2
      exact new row (one ▸ mem_singleton_self row)
    rw [added, map_append, nodup_append]
    refine ⟨sound.distinct, nodup_singleton _, ?_⟩
    intro id inBefore other isNew same
    obtain ⟨prior, mem, rfl⟩ := mem_map.mp inBefore
    exact new.fresh prior mem (same.trans (mem_singleton.mp isNew))

/-- A call keeps the life of every delegation sound. -/
theorem step (sound : Sound history) (step : Step history after) : Sound after where
  distinct := sound.step_distinct step
  targets := by
    intro next mem
    rcases step.delegations.1.predecessor mem with new | ⟨row, inBefore, move⟩
    · exact ⟨by simp [new.target, new.running], by simp [new.target]⟩
    · exact (sound.targets row inBefore).move move
  ended := by
    intro delegationId won
    have earlier : ∀ delegationId ∈ history.winners, ∃ row ∈ after.store.delegations,
        row.id = delegationId ∧ row.status ≠ .running := by
      intro delegationId won
      obtain ⟨row, mem, rfl, notRunning⟩ := sound.ended delegationId won
      obtain ⟨next, inAfter, move⟩ := step.delegations.1.successor mem
      exact ⟨next, inAfter, move.id, move.notRunning (sound.targets row mem) notRunning⟩
    rcases step.winners with same | ⟨prior, -, -, added, next, inAfter, named, notRunning⟩
    · rw [same] at won
      exact earlier delegationId won
    · rw [added] at won
      rcases mem_cons.mp won with rfl | before
      · exact ⟨next, inAfter, named, notRunning⟩
      · exact earlier delegationId before
  once := by
    rcases step.winners with same | ⟨prior, mem, running, added, -⟩
    · rw [same]
      exact sound.once
    · rw [added, nodup_cons]
      refine ⟨?_, sound.once⟩
      intro won
      obtain ⟨row, inBefore, named, notRunning⟩ := sound.ended prior.id won
      obtain rfl := inj_on_of_nodup_map sound.distinct inBefore mem named
      exact notRunning running

theorem of_reaches (reaches : lifecycle.Reaches history) : Sound history := by
  apply reaches.invariant
  · rintro history ⟨empty, none⟩
    constructor
    · rw [empty]
      exact nodup_nil
    · rw [empty]
      exact forall_mem_nil _
    · rw [none]
      exact forall_mem_nil _
    · rw [none]
      exact nodup_nil
  · intro history label after _ sound stepped
    obtain rfl : after = history.call label := stepped
    exact sound.step (history.call_step label)

theorem forward (sound : Sound history) (call : DelegationCall)
    (mem : row ∈ history.store.delegations) :
    ∃ next ∈ (history.call call).store.delegations, DelegationMove row next
      ∧ ∀ other ∈ (history.call call).store.delegations, other.id = row.id → other = next := by
  have step := history.call_step call
  obtain ⟨next, inAfter, move⟩ := step.delegations.1.successor mem
  refine ⟨next, inAfter, move, ?_⟩
  intro other inAfterToo same
  exact inj_on_of_nodup_map (sound.step_distinct step) inAfterToo inAfter (same.trans move.id.symm)

end Sound

/-- The life of every delegation of a history. -/
structure Lifecycle (history : DelegationHistory) : Prop where
  /-- A call leaves the status of a delegation or moves it forward. -/
  moves : ∀ call, ∀ row ∈ history.store.delegations,
    ∃ next ∈ (history.call call).store.delegations, DelegationMove row next
      ∧ ∀ other ∈ (history.call call).store.delegations, other.id = row.id → other = next
  /-- A terminal status is kept for good. -/
  terminal : ∀ later, lifecycle.Leads history later →
    ∀ row ∈ history.store.delegations, row.status.isTerminal = true →
      ∃ next ∈ later.store.delegations, next.id = row.id ∧ next.status = row.status
        ∧ ∀ other ∈ later.store.delegations, other.id = row.id → other = next
  /-- There is a teardown target while the teardown lasts. -/
  target : ∀ row ∈ history.store.delegations,
    row.teardownTarget.isSome = true ↔ row.status = .cancelling
  /-- A teardown ends in a status that may be asked for. -/
  targets : ∀ row ∈ history.store.delegations, ∀ target, row.teardownTarget = some target →
    target = .cancelled ∨ target = .failed
  /-- One barrier or teardown wins, and no other one ever does. -/
  winsOnce : history.winners.Nodup

theorem terminal_leads {history later : DelegationHistory} (reaches : lifecycle.Reaches history)
    (leads : lifecycle.Leads history later)
    (mem : row ∈ history.store.delegations) (terminal : row.status.isTerminal) :
    ∃ next ∈ later.store.delegations, next.id = row.id ∧ next.status = row.status := by
  apply leads.relates reaches
  · exact ⟨row, mem, rfl, rfl⟩
  · rintro middle label after _ ⟨_, inMiddle, named, same⟩ stepped
    obtain rfl : after = middle.call label := stepped
    obtain ⟨next, inAfter, move⟩ := (middle.call_step label).delegations.1.successor inMiddle
    have kept := move.move.terminal (by rw [same]; exact terminal)
    exact ⟨next, inAfter, move.id.trans named, kept.trans same⟩

/-- Whatever the barrier, the teardowns, the failed launches and their retries do in
whatever order, a delegation ends once, in one way, and stays ended. -/
theorem delegation_lifecycle {history : DelegationHistory} (reaches : lifecycle.Reaches history) :
    Lifecycle history := by
  have sound := Sound.of_reaches reaches
  constructor
  · intro call row mem
    exact sound.forward call mem
  · intro later leads row mem terminal
    obtain ⟨next, inLater, named, same⟩ := terminal_leads reaches leads mem terminal
    refine ⟨next, inLater, named, same, ?_⟩
    intro other inLaterToo sameId
    exact inj_on_of_nodup_map (Sound.of_reaches (leads.reaches reaches)).distinct inLaterToo
      inLater (sameId.trans named.symm)
  · intro row mem
    exact (sound.targets row mem).cancelling
  · intro row mem
    exact (sound.targets row mem).target
  · exact sound.once

/-- A session that has launched nothing yet. -/
def idleParent : SessionRow where
  id := "parent"
  parentSessionId := none
  delegationId := none
  delegationSpawnIndex := none
  subagentType := none
  entries := []
  activeLeafId := none
  actions := []
  mailbox := []

def launchOne : CreateDelegationRequest where
  parentSessionId := "parent"
  launchKey := "launch"
  launchShape := "shape"
  kind := .full
  workflow := none
  label := none
  expectedSubagents := 1

/-- A cancellation wins against the barrier, and a second teardown finds nothing. -/
theorem delegation_lifecycle_cancelled :
    ∃ history : DelegationHistory,
      history.store.delegations.map DelegationRow.status = [.cancelled]
        ∧ history.winners = ["delegation_1"] ∧ Lifecycle history := by
  let start : DelegationHistory :=
    { store := { delegations := [], sessions := [idleParent] }, winners := [] }
  let calls : List DelegationCall :=
    [.create launchOne { id := "delegation_1", attemptId := "attempt_1" },
      .create launchOne { id := "delegation_2", attemptId := "attempt_2" },
      .beginTeardown "parent" "delegation_1" "attempt_1" .cancelled,
      .finish "delegation_1" "attempt_1" .done (.inl rfl),
      .beginTeardown "parent" "delegation_1" "attempt_1" .failed,
      .finishTeardown "delegation_1" "attempt_1" .cancelled]
  have seen : (calls.foldl call start).store.delegations.map DelegationRow.status = [.cancelled]
      ∧ (calls.foldl call start).winners = ["delegation_1"] := by
    decide +kernel
  have initially : Initial start := ⟨rfl, rfl⟩
  have reaches : lifecycle.Reaches (calls.foldl call start) :=
    (Machine.Reaches.start initially).calls calls
  generalize calls.foldl call start = history at seen reaches
  exact ⟨history, seen.1, seen.2, delegation_lifecycle reaches⟩

end DelegationHistory

end PiRelay.Store
