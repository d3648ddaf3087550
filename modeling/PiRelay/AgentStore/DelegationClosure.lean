import PiRelay.AgentStore.DelegationEffects

/-! A delegation that is over has no input left for its subagents, whatever the
transactions around it interleave. An input is admitted under the lock of a delegation
that runs; whoever ends the running holds that lock, and either cancels the inputs
under the claim of the launch or has seen the full set of subagents idle. -/
namespace PiRelay.Store

open AgentVocab AgentCore Session StoreProcess DelegationStore List Option
open Library (Program Machine Interleaving)

/-- What a process relies on at its point. -/
def StoreAssertion (store : DelegationStore) : StoreProcess → Prop
  | .enqueueInput request .own | .enqueueInput request .ownLocked =>
    ∃ session ∈ store.sessions, session.id = request.sessionId ∧ session.delegationId = none
  | .enqueueInput _ (.delegationLocked _ delegationId status)
  | .enqueueInput _ (.childLocked _ delegationId status) =>
    status = .running → Running store delegationId
  | .enqueueControl _ _ (.delegationLocked delegation)
  | .enqueueControl _ _ (.childLocked delegation) =>
    delegation.status = .running → Running store delegation.id
  | .launch delegationId (.read row) =>
    row.id = delegationId ∧ Known store row
      ∧ (row.status = .running → Running store delegationId ∨ Full store delegationId)
  | .launch delegationId (.spawning row missing) | .launch delegationId (.parentLocked row missing) =>
    row.id = delegationId ∧ Room store delegationId missing
      ∧ (missing = [] ∨ Running store delegationId ∨ Full store delegationId)
  | .closing false claim _ =>
    NotRunning store claim.delegationId ∧ ∃ target asked, claim.cause = .teardown target asked
  | .closing true claim (.moved row) => row ∈ store.delegations ∧ claim.admits row = true
  | .closing true claim (.childrenLocked row _) => row.id = claim.delegationId
  | .closing true claim (.selected _ _ inputIds) => Covers store claim.delegationId inputIds
  | .finish delegationId _ _ _ (.locked expectedSubagents) =>
    ∃ row ∈ store.delegations, row.id = delegationId
      ∧ row.expectedSubagents = expectedSubagents
  | .finish delegationId _ _ _ .ready => Full store delegationId ∧ Quiet store delegationId
  | _ => True

/-- What a process relies on, no other one can undo. -/
theorem StoreAssertion.stable {process other : StoreProcess} {before after : DelegationStore}
    (effect : StoreEffect process before after) (sound : SoundStore before)
    (apart : ∀ lock ∈ process.holds, lock ∉ other.holds) (asserted : StoreAssertion before other) :
    StoreAssertion after other := by
  have free : ∀ {lock : StoreLock}, lock ∈ other.holds → lock ∉ process.holds :=
    fun held taken => apart _ taken held
  cases other with
  | enqueueInput _ stage =>
    cases stage with
    | own | ownLocked => exact effect.unbound asserted
    | delegationLocked | childLocked =>
      exact fun isRunning => effect.running (free (by simp [holds])) (asserted isRunning)
    | _ => trivial
  | enqueueControl _ _ stage =>
    cases stage with
    | begun => trivial
    | delegationLocked | childLocked =>
      exact fun isRunning => effect.running (free (by simp [holds])) (asserted isRunning)
  | launch delegationId stage =>
    cases stage with
    | begun | claimed => trivial
    | read =>
      obtain ⟨named, known, runs⟩ := asserted
      exact ⟨named, effect.known known, fun isRunning =>
        effect.running_or_full sound (free (by simp [holds])) (runs isRunning)⟩
    | spawning | parentLocked =>
      obtain ⟨named, room, runs⟩ := asserted
      have claimed : .launch delegationId ∉ process.holds := free (by simp [holds])
      exact ⟨named, effect.room sound claimed room,
        runs.imp_right (effect.running_or_full sound claimed)⟩
  | closing guarded claim stage =>
    cases guarded with
    | false => exact ⟨effect.notRunning sound asserted.1, asserted.2⟩
    | true =>
      cases stage with
      | begun | parentLocked => trivial
      | moved row =>
        obtain ⟨mem, admitted⟩ := asserted
        have named : row.id = claim.delegationId := by
          rw [ClosingClaim.admits, Bool.and_eq_true, Bool.and_eq_true,
            DelegationRow.isAttempt, Bool.and_eq_true, beq_iff_eq] at admitted
          exact admitted.1.1.1
        obtain ⟨next, inAfter, -, same⟩ := effect.row mem
        rw [named] at same
        obtain rfl := same (free (by simp [holds]))
        exact ⟨inAfter, admitted⟩
      | childrenLocked => exact asserted
      | selected =>
        exact effect.covers sound (free (by simp [holds])) (free (by simp [holds])) asserted
  | finish _ _ _ _ stage =>
    cases stage with
    | begun => trivial
    | locked expectedSubagents =>
      obtain ⟨row, mem, named, expected⟩ := asserted
      obtain ⟨next, inAfter, move, -⟩ := effect.row mem
      exact ⟨next, inAfter, move.id.trans named, move.expectedSubagents.trans expected⟩
    | ready =>
      obtain ⟨full, quiet⟩ := asserted
      exact ⟨effect.full sound full, effect.quiet sound (.inr full) (free (by simp [holds])) quiet⟩
  | _ => trivial

section Moves

variable {store after : DelegationStore} {next : Option StoreProcess}

theorem SessionsStep.onSession (store : DelegationStore) (sessionId : String)
    (delegation : Delegation) {change : ChildSession → ChildSession} {grows : SessionRow → Prop}
    (shrinks : ∀ session, session.id = sessionId → ¬grows session →
      Shrinks session.mailbox (change (session.under delegation)).mailbox) :
    SessionsStep grows store.sessions (store.onSession sessionId delegation change).sessions := by
  refine ⟨_, rfl, ?_⟩
  intro session
  split
  · rename_i named
    exact ⟨rfl, rfl, rfl, shrinks session (beq_iff_eq.mp named)⟩
  · exact .refl session

variable {process : StoreProcess} {row : DelegationRow} {delegationId : String}
    {claim : ClosingClaim}

theorem unchanged {store after : DelegationStore} {following : StoreProcess}
    {next : Option StoreProcess} (moves : some (store, some following) = some (after, next))
    (asserted : StoreAssertion store following) :
    StoreEffect process store after ∧ ∀ process ∈ next, StoreAssertion after process := by
  cases moves
  refine ⟨.refl process store, fun _ isNext => ?_⟩
  obtain rfl := mem_some.mp isNext
  exact asserted

theorem finished {committed after : DelegationStore} {next : Option StoreProcess}
    (moves : some (committed, none) = some (after, next))
    (effect : StoreEffect process store committed) :
    StoreEffect process store after ∧ ∀ process ∈ next, StoreAssertion after process := by
  cases moves
  exact ⟨effect, fun process isNext => absurd isNext (not_mem_none process)⟩

theorem moveInput_effect (sound : SoundStore store) {request : UserInput} {stage : InputStage}
    (asserted : StoreAssertion store (.enqueueInput request stage))
    (moves : StoreProcess.moveInput store request stage = some (after, next)) :
    StoreEffect (.enqueueInput request stage) store after
      ∧ ∀ process ∈ next, StoreAssertion after process := by
  cases stage with
  | begun =>
    rw [moveInput] at moves
    split at moves
    · cases moves
    · rename_i session found
      have mem := mem_of_find?_eq_some found
      have named : session.id = request.sessionId := by simpa using find?_some found
      split at moves
      · rename_i unbound
        exact unchanged moves ⟨session, mem, named, unbound⟩
      · cases moves
      · exact unchanged moves trivial
  | own | delegationLocked =>
    exact unchanged moves asserted
  | ownLocked =>
    refine finished moves (.works (fun session => session.id = request.sessionId) rfl ?_ ?_)
    · exact .onSession _ _ _ fun session named grows => absurd named grows
    · intro session mem named delegationId bound
      obtain ⟨own, ownMember, ownNamed, unbound⟩ := asserted
      obtain rfl := inj_on_of_nodup_map sound.sessions mem ownMember (named.trans ownNamed.symm)
      rw [unbound] at bound
      cases bound
  | scopeRead =>
    rw [moveInput] at moves
    split at moves
    · exact unchanged moves trivial
    · cases moves
  | parentLocked =>
    rw [moveInput] at moves
    split at moves
    · cases moves
    · rename_i row found
      exact unchanged moves fun isRunning =>
        ⟨row, mem_of_find?_eq_some found, by simpa using find?_some found, isRunning⟩
  | childLocked _ delegationId =>
    rw [moveInput] at moves
    split at moves
    · cases moves
    rename_i session found
    split at moves
    · cases moves
    rename_i scope
    split at moves
    · cases moves
    rename_i isRunning
    refine finished moves (.works (fun session => session.id = request.sessionId) rfl ?_ ?_)
    · exact .onSession _ _ _ fun session named grows => absurd named grows
    · intro other mem named boundTo bound
      have foundNamed : session.id = request.sessionId := by
        simpa using find?_some found
      obtain rfl := inj_on_of_nodup_map sound.sessions mem
        (mem_of_find?_eq_some found) (named.trans foundNamed.symm)
      have same : other.delegationId = some delegationId := by simpa using scope
      cases bound.symm.trans same
      exact ⟨by simp [holds], asserted (by simpa using isRunning)⟩

theorem enqueueScopedSubagentControl_bound {child : ChildSession}
    {request : ScopedSubagentControlRequest} {context : ControlContext}
    {result : ChildSession × EnqueuedControl}
    (sends : child.enqueueScopedSubagentControl request context = .ok (some result)) :
    child.delegation.id = request.delegationId
      ∧ child.delegationId = some request.delegationId := by
  rw [ChildSession.enqueueScopedSubagentControl] at sends
  split at sends
  · cases sends
  rename_i named
  split at sends
  · cases sends
  split at sends
  · cases sends
  split at sends
  · cases sends
  split at sends
  · cases sends
  split at sends
  · cases sends
  rename_i binds
  simp only [ChildSession.bindsControl, Bool.not_eq_true', Bool.not_eq_false,
    Bool.and_eq_true, beq_iff_eq] at binds
  exact ⟨by simpa using named, binds.1.2⟩

theorem moveControl_effect {request : ScopedSubagentControlRequest} {context : ControlContext}
    {stage : ControlStage} (asserted : StoreAssertion store (.enqueueControl request context stage))
    (moves : StoreProcess.moveControl store request context stage = some (after, next)) :
    StoreEffect (.enqueueControl request context stage) store after
      ∧ ∀ process ∈ next, StoreAssertion after process := by
  cases stage with
  | begun =>
    rw [moveControl] at moves
    split at moves
    · cases moves
    · rename_i row found
      exact unchanged moves fun isRunning => ⟨row, mem_of_find?_eq_some found, rfl, isRunning⟩
  | delegationLocked =>
    exact unchanged moves asserted
  | childLocked delegation =>
    rw [moveControl] at moves
    split at moves
    · cases moves
    · split at moves
      · cases moves
      · cases moves
      · refine finished moves (.works (fun session => session.id = request.subagentId
          ∧ ∃ child result, (session.under delegation).enqueueScopedSubagentControl request
              context = .ok (some (child, result)) ∧ result.replayed = false) rfl ?_ ?_)
        · refine .onSession _ _ _ fun session named grows => ?_
          split
          · exact .refl _
          · exact .refl _
          · rename_i child result sends
            rcases ChildSession.enqueueScopedSubagentControl_some sends with
              ⟨rfl, -⟩ | ⟨-, isNew, -⟩
            · exact .refl _
            · exact absurd ⟨named, child, result, sends, isNew⟩ grows
        · rintro session mem ⟨-, child, result, sends, isNew⟩ _ bound
          obtain ⟨named, scope⟩ := enqueueScopedSubagentControl_bound sends
          cases bound.symm.trans scope
          rcases ChildSession.enqueueScopedSubagentControl_some sends with
            ⟨-, replayed⟩ | ⟨-, -, isRunning, -⟩
          · rw [isNew] at replayed
            cases replayed
          · rw [← show delegation.id = request.delegationId from named]
            exact ⟨by simp [holds], asserted isRunning⟩

theorem work_effect (sessionId : String) (task : SessionWork) (unread : Delegation) :
    StoreEffect (.work sessionId task true) store
      (store.onSession sessionId unread task.run) := by
  refine .works (fun _ => False) rfl ?_ fun _ _ grows => grows.elim
  exact .onSession _ _ _ fun session _ _ => (task.run_moves _).shrinks

theorem create_effect {request : CreateDelegationRequest} {drawn : DrawnDelegation}
    (creates : store.createDelegationIdempotent request drawn = .ok (after, row)) :
    StoreEffect (.create request drawn true) store after := by
  obtain ⟨sessions, same | ⟨added, new⟩⟩ := createDelegationIdempotent_ok creates
  · refine .works (fun _ => False) same ?_ fun _ _ grows => grows.elim
    rw [sessions]
    exact .refl _
  · refine .creates _ new ?_
    rw [← sessions, ← added]

section

variable (sound : SoundStore store)
include sound

theorem room_missingIndices (known : Known store row) :
    Room store row.id (store.missingIndices row) := by
  obtain ⟨current, mem, named, _⟩ := known
  obtain ⟨other, otherMember, otherNamed, nodup, bounded⟩ := sound.room current mem
  obtain rfl := sound.unique otherMember mem otherNamed
  rw [named, map_nil, append_nil] at nodup bounded
  refine ⟨other, mem, named, ?_, ?_⟩
  · rw [nodup_append]
    refine ⟨nodup, (nodup_range.filter _).map fun _ _ => Option.some.inj, ?_⟩
    intro place filled missing isMissing same
    obtain ⟨index, inMissing, rfl⟩ := mem_map.mp isMissing
    have unfilled := (mem_filter.mp inMissing).2
    rw [← same] at unfilled
    simp [filled] at unfilled
  · intro place inPlaces
    rcases mem_append.mp inPlaces with filled | isMissing
    · exact bounded place filled
    · obtain ⟨index, inMissing, rfl⟩ := mem_map.mp isMissing
      have below := mem_range.mp (mem_filter.mp inMissing).1
      exact ⟨index, rfl, by omega⟩

theorem running_of_room {index : Nat} {missing : List Nat}
    (room : Room store delegationId (index :: missing))
    (runs : index :: missing = [] ∨ Running store delegationId ∨ Full store delegationId) :
    Running store delegationId := by
  rcases runs with none | running | ⟨row, mem, named, full⟩
  · cases none
  · exact running
  · have none := room.missing_eq_nil sound.distinct ⟨row, mem, named, rfl⟩ (by omega)
    cases none

theorem moveLaunch_effect {stage : LaunchStage} {choice : StoreChoice}
    (asserted : StoreAssertion store (.launch delegationId stage))
    (moves : StoreProcess.moveLaunch store delegationId stage choice = some (after, next)) :
    StoreEffect (.launch delegationId stage) store after
      ∧ ∀ process ∈ next, StoreAssertion after process := by
  rw [moveLaunch.eq_def] at moves
  split at moves
  · exact unchanged moves trivial
  · split at moves
    · cases moves
    · rename_i row found
      have mem := mem_of_find?_eq_some found
      have named : row.id = delegationId := by simpa using find?_some found
      exact unchanged moves
        ⟨named, ⟨row, mem, rfl, rfl⟩, fun isRunning => .inl ⟨row, mem, named, isRunning⟩⟩
  · rename_i row
    obtain ⟨rfl, known, runs⟩ := asserted
    split at moves
    · cases moves
    · rename_i admitted
      have room := room_missingIndices sound known
      refine unchanged moves ⟨rfl, room, ?_⟩
      by_cases isRunning : row.status = .running
      · exact .inr (runs isRunning)
      · -- Nobody spawns for a delegation that is over, so every place has to be filled.
        refine .inl (room.missing_eq_nil sound.distinct known ?_)
        have few : ¬((store.spawnedIndices row.id).length : Int) < row.expectedSubagents :=
          fun few => admitted ⟨isRunning, few⟩
        rw [spawnedIndices, length_map] at few
        omega
  · exact unchanged moves trivial
  · exact unchanged moves trivial
  · exact unchanged moves trivial
  · split at moves
    · exact unchanged moves asserted
    · cases moves
  · rename_i row index missing fork
    obtain ⟨rfl, room, runs⟩ := asserted
    have running := running_of_room sound room runs
    split at moves
    · cases moves
    · rename_i fresh
      cases moves
      refine ⟨.spawns row index missing fork ?_ running room (by simpa using fresh) rfl, ?_⟩
      · simp [holds]
      · intro process isNext
        obtain rfl := mem_some.mp isNext
        exact ⟨rfl, room.createContextFork, .inr (.inl running)⟩
  · cases moves

end

theorem StoreEffect.of_moveDelegation {moved : DelegationStore} {admits : DelegationRow → Bool}
    {change : DelegationRow → DelegationRow}
    (moves : store.moveDelegation admits change = some (moved, row))
    (named : ∀ row, admits row → row.id = delegationId)
    (step : ∀ row, admits row → DelegationMove row (change row))
    (held : .delegation delegationId ∈ process.holds) (same : after.delegations = moved.delegations)
    (sessions : SessionsStep (fun _ => False) store.sessions after.sessions)
    (ends : Running store delegationId →
      .launch delegationId ∈ process.holds ∨ Full store delegationId)
    (closes : NotRunning after delegationId → Quiet after delegationId) :
    StoreEffect process store after := by
  obtain ⟨-, rfl⟩ := moveDelegation_some moves
  refine .moves delegationId held _ same ?_ sessions ends closes
  intro row
  split
  · rename_i admitted
    exact ⟨step row admitted, fun other => absurd (named row admitted) other⟩
  · exact ⟨.refl row, fun _ => rfl⟩

theorem ClosingClaim.admits_id (admitted : claim.admits row) : row.id = claim.delegationId := by
  rw [admits, Bool.and_eq_true, Bool.and_eq_true, DelegationRow.isAttempt, Bool.and_eq_true,
    beq_iff_eq] at admitted
  exact admitted.1.1.1

theorem ClosingClaim.admits_teardown {target : DelegationStatus}
    {asked : target = .cancelled ∨ target = .failed} (cause : claim.cause = .teardown target asked)
    (admitted : claim.admits row) : row.status = .running := by
  rw [admits, cause, Bool.and_eq_true] at admitted
  exact beq_iff_eq.mp admitted.2

theorem ClosingClaim.change_move (admitted : claim.admits row) :
    DelegationMove row (claim.change row) := by
  cases cause : claim.cause with
  | teardown _ asked =>
    rw [change, cause]
    exact cancelling_move (admits_teardown cause admitted) asked
  | failedLaunch error =>
    rw [change, cause]
    exact failLaunch_move error row

theorem ClosingClaim.change_cancelling (isRunning : row.status = .running) :
    (claim.change row).status = .cancelling := by
  rw [change]
  split
  · rfl
  · rw [failLaunch, if_pos isRunning]

theorem unguarded_misses (sound : SoundStore store)
    (notRunning : NotRunning store claim.delegationId)
    (cause : ∃ target asked, claim.cause = .teardown target asked)
    (mem : row ∈ store.delegations) (admitted : claim.admits row) : False := by
  obtain ⟨target, asked, hCause⟩ := cause
  exact sound.not_running
    ⟨row, mem, claim.admits_id admitted, claim.admits_teardown hCause admitted⟩ notRunning

theorem SessionsStep.cancelInputs (store : DelegationStore) (row : DelegationRow)
    (inputIds : List String) :
    SessionsStep (fun _ => False) store.sessions (store.cancelInputs row inputIds).sessions := by
  refine ⟨_, rfl, ?_⟩
  intro session
  split
  · refine ⟨rfl, rfl, rfl, fun _ => .of_map fun input active => ?_⟩
    split at active
    · cases active
    · rename_i unselected
      rw [if_neg unselected]
      exact ⟨active, rfl⟩
  · exact .refl session

theorem Covers.quiet {inputIds : List String} (covers : Covers store row.id inputIds) :
    Quiet (store.cancelInputs row inputIds) row.id := by
  intro session mem input inMailbox
  obtain ⟨inSessions, bound⟩ := mem_subagents_iff.mp mem
  obtain ⟨prior, inStore, rfl⟩ := mem_map.mp inSessions
  split at bound
  · rename_i isSubagent
    rw [if_pos isSubagent] at inMailbox
    obtain ⟨earlier, inPrior, rfl⟩ := mem_map.mp inMailbox
    have inSubagents := mem_subagents_iff.mpr ⟨inStore, beq_iff_eq.mp isSubagent⟩
    split
    · rfl
    · rename_i unselected
      rw [← Bool.not_eq_true]
      intro active
      have selected := covers prior inSubagents earlier inPrior active
      exact unselected (by simp [active, selected])
  · rename_i other
    rw [bound] at other
    exact absurd (beq_self_eq_true _) other

theorem covers_activeInputIds (store : DelegationStore) (delegationId : String) :
    Covers store delegationId (store.activeInputIds delegationId) := by
  intro session mem input inMailbox active
  rw [activeInputIds, mem_flatMap]
  exact ⟨session, mem, mem_map_of_mem (mem_filter.mpr ⟨inMailbox, active⟩)⟩

theorem moveClosing_effect (sound : SoundStore store) {guarded : Bool} {stage : ClosingStage}
    (asserted : StoreAssertion store (.closing guarded claim stage))
    (moves : StoreProcess.moveClosing store guarded claim stage = some (after, next)) :
    StoreEffect (.closing guarded claim stage) store after
      ∧ ∀ process ∈ next, StoreAssertion after process := by
  cases guarded with
  | false =>
    obtain ⟨notRunning, cause⟩ := asserted
    have misses : store.moveDelegation claim.admits claim.change = none := by
      cases moved : store.moveDelegation claim.admits claim.change with
      | none => rfl
      | some =>
        obtain ⟨⟨row, mem, admitted, -⟩, -⟩ := moveDelegation_some moved
        exact (unguarded_misses sound notRunning cause mem admitted).elim
    cases stage with
    | begun =>
      rw [moveClosing] at moves
      split at moves
      · exact unchanged moves ⟨notRunning, cause⟩
      · cases moves
    | parentLocked =>
      rw [moveClosing] at moves
      split at moves
      · cases moves
      · rename_i row found
        exact (unguarded_misses sound notRunning cause (mem_of_find?_eq_some found)
          (find?_some found)).elim
    | moved =>
      rw [moveClosing] at moves
      split at moves
      · exact unchanged moves ⟨notRunning, cause⟩
      · rw [misses] at moves
        cases moves
    | childrenLocked =>
      exact unchanged moves ⟨notRunning, cause⟩
    | selected =>
      rw [moveClosing, misses] at moves
      cases moves
  | true =>
    cases stage with
    | begun =>
      rw [moveClosing] at moves
      split at moves
      · exact unchanged moves trivial
      · cases moves
    | parentLocked =>
      rw [moveClosing] at moves
      split at moves
      · cases moves
      · rename_i row found
        exact unchanged moves ⟨mem_of_find?_eq_some found, find?_some found⟩
    | moved row =>
      obtain ⟨mem, admitted⟩ := asserted
      rw [moveClosing] at moves
      split at moves
      · exact unchanged moves (claim.admits_id admitted)
      · -- The launch had failed before: only its error is filled in.
        rename_i notCancelling
        have notRunning : NotRunning store claim.delegationId :=
          ⟨row, mem, claim.admits_id admitted, fun isRunning =>
            notCancelling (claim.change_cancelling isRunning)⟩
        obtain ⟨⟨committed, changed⟩, moved, committedNext⟩ := map_eq_some_iff.mp moves
        cases committedNext
        obtain ⟨-, hCommitted⟩ := moveDelegation_some moved
        refine finished rfl (.of_moveDelegation moved (fun _ => claim.admits_id)
          (fun _ => claim.change_move) ?_ rfl ?_ ?_ ?_)
        · simp [holds]
        · rw [hCommitted]
          exact .refl _
        · exact fun isRunning => (sound.not_running isRunning notRunning).elim
        · intro _
          rw [hCommitted]
          exact sound.quiet notRunning
    | childrenLocked row =>
      rw [moveClosing] at moves
      have covers := covers_activeInputIds store row.id
      rw [show row.id = claim.delegationId from asserted] at covers moves
      exact unchanged moves covers
    | selected _ _ inputIds =>
      obtain ⟨⟨moved, changed⟩, hMoved, committed⟩ := map_eq_some_iff.mp moves
      cases committed
      obtain ⟨⟨prior, mem, admitted, rfl⟩, rfl⟩ := moveDelegation_some hMoved
      have named : (claim.change prior).id = claim.delegationId :=
        (claim.change_move admitted).id.trans (claim.admits_id admitted)
      refine ⟨.of_moveDelegation hMoved (fun _ => claim.admits_id)
        (fun _ => claim.change_move) ?_ rfl ?_ ?_ ?_, ?_⟩
      · simp [holds]
      · have step := SessionsStep.cancelInputs store (claim.change prior) inputIds
        exact step
      · exact fun _ => .inl (by simp [holds])
      · intro _
        rw [← named]
        have covers : Covers store (claim.change prior).id inputIds := by
          rw [named]
          exact asserted
        have quiet := covers.quiet
        exact quiet
      · intro process isNext
        obtain rfl := mem_some.mp isNext
        trivial

theorem full_of_ready {expectedSubagents : Int}
    (known : ∃ row ∈ store.delegations, row.id = delegationId
      ∧ row.expectedSubagents = expectedSubagents)
    (ready : store.readyToFinish delegationId expectedSubagents) :
    Full store delegationId ∧ Quiet store delegationId := by
  obtain ⟨row, mem, named, rfl⟩ := known
  simp only [readyToFinish, Bool.and_eq_true, beq_iff_eq, List.all_eq_true] at ready
  refine ⟨⟨row, mem, named, ready.1.1⟩, ?_⟩
  intro session inSubagents input inMailbox
  have idle := ready.2 session inSubagents
  simp only [SessionRow.isIdle, SessionRow.hasQueuedInputs, Bool.and_eq_true, Bool.not_eq_true',
    List.any_eq_false, Bool.not_eq_true] at idle
  exact idle.1.2 input inMailbox

theorem moveFinish_effect {attemptId : String} {status : DelegationStatus}
    {completes : status = .done ∨ status = .doneWithFailures} {stage : FinishStage}
    (asserted : StoreAssertion store (.finish delegationId attemptId status completes stage))
    (moves : StoreProcess.moveFinish store delegationId attemptId status completes stage =
      some (after, next)) :
    StoreEffect (.finish delegationId attemptId status completes stage) store after
      ∧ ∀ process ∈ next, StoreAssertion after process := by
  cases stage with
  | begun =>
    rw [moveFinish] at moves
    split at moves
    · cases moves
    · rename_i row found
      have admitted := find?_some found
      rw [Bool.and_eq_true, DelegationRow.isAttempt, Bool.and_eq_true, beq_iff_eq] at admitted
      exact unchanged moves ⟨row, mem_of_find?_eq_some found, admitted.1.1, rfl⟩
  | locked =>
    rw [moveFinish] at moves
    split at moves
    · rename_i ready
      exact unchanged moves (full_of_ready asserted ready)
    · cases moves
  | ready =>
    obtain ⟨full, quiet⟩ := asserted
    obtain ⟨⟨_, _⟩, moved, committedNext⟩ := map_eq_some_iff.mp moves
    cases committedNext
    obtain ⟨-, hCommitted⟩ := moveDelegation_some moved
    have named : ∀ row : DelegationRow,
        (row.isAttempt delegationId attemptId && row.status == .running) →
        row.id = delegationId := by
      intro row admitted
      simp only [DelegationRow.isAttempt, Bool.and_eq_true, beq_iff_eq] at admitted
      exact admitted.1.1
    refine finished rfl (.of_moveDelegation moved named ?_ ?_ rfl ?_ ?_ ?_)
    · intro row admitted
      rw [Bool.and_eq_true, beq_iff_eq] at admitted
      exact finished_move admitted.2 completes
    · simp [holds]
    · rw [hCommitted]
      exact .refl _
    · exact fun _ => .inr full
    · intro _
      rw [hCommitted]
      exact quiet

theorem moveFinishTeardown_effect (sound : SoundStore store) {attemptId : String}
    {target : DelegationStatus} {stage : FinishTeardownStage}
    (moves : StoreProcess.moveFinishTeardown store delegationId attemptId target stage =
      some (after, next)) :
    StoreEffect (.finishTeardown delegationId attemptId target stage) store after
      ∧ ∀ process ∈ next, StoreAssertion after process := by
  cases stage with
  | begun =>
    rw [moveFinishTeardown] at moves
    split at moves
    · exact unchanged moves trivial
    · cases moves
  | selected =>
    exact unchanged moves trivial
  | locked =>
    obtain ⟨⟨_, _⟩, moved, committedNext⟩ := map_eq_some_iff.mp moves
    cases committedNext
    obtain ⟨⟨prior, mem, admitted, -⟩, hCommitted⟩ := moveDelegation_some moved
    have fields : ∀ row : DelegationRow, (row.isAttempt delegationId attemptId
        && row.status == .cancelling && row.teardownTarget == some target) →
        row.id = delegationId ∧ row.status = .cancelling ∧ row.teardownTarget = some target := by
      intro row admitted
      simp only [DelegationRow.isAttempt, Bool.and_eq_true, beq_iff_eq] at admitted
      exact ⟨admitted.1.1.1, admitted.1.2, admitted.2⟩
    have notRunning : NotRunning store delegationId := by
      refine ⟨prior, mem, (fields prior admitted).1, ?_⟩
      simp [(fields prior admitted).2.1]
    refine finished rfl (.of_moveDelegation moved (fun row admitted => (fields row admitted).1)
      ?_ ?_ rfl ?_ ?_ ?_)
    · intro row admitted
      exact tornDown_move (fields row admitted).2.1 (fields row admitted).2.2
    · simp [holds]
    · rw [hCommitted]
      exact .refl _
    · exact fun isRunning => (sound.not_running isRunning notRunning).elim
    · intro _
      rw [hCommitted]
      exact sound.quiet notRunning

theorem move_effect (sound : SoundStore store) {choice : StoreChoice}
    (asserted : StoreAssertion store process)
    (moves : storeProgram.move store process choice = some (after, next)) :
    StoreEffect process store after ∧ ∀ process ∈ next, StoreAssertion after process := by
  have moves : move store process choice = some (after, next) := moves
  cases process with
  | enqueueInput => exact moveInput_effect sound asserted moves
  | enqueueControl => exact moveControl_effect asserted moves
  | work sessionId task locked =>
    cases locked with
    | false =>
      exact unchanged moves trivial
    | true => exact finished moves (work_effect sessionId task _)
  | create _ _ locked =>
    cases locked with
    | false =>
      rw [move] at moves
      split at moves
      · exact unchanged moves trivial
      · cases moves
    | true =>
      rw [move] at moves
      split at moves
      · cases moves
      · rename_i created row creates
        exact finished moves (create_effect creates)
  | launch => exact moveLaunch_effect sound asserted moves
  | cancel =>
    exact unchanged moves trivial
  | closing => exact moveClosing_effect sound asserted moves
  | guarding => exact finished moves (.refl _ _)
  | finish => exact moveFinish_effect asserted moves
  | finishTeardown => exact moveFinishTeardown_effect sound moves

theorem begins_assertion (begins : storeProgram.begins store process) :
    StoreAssertion store process := by
  have begins : StoreProcess.begins store process := begins
  rw [StoreProcess.begins.eq_def] at begins
  split at begins
  any_goals trivial
  obtain ⟨row, mem, admitted⟩ := List.any_eq_true.mp begins
  simp only [DelegationRow.isAttempt, Bool.and_eq_true, beq_iff_eq] at admitted
  refine ⟨⟨row, mem, admitted.1.1.1.1, ?_⟩, _, _, rfl⟩
  simp [admitted.1.2]

end Moves

/-- Nothing has been delegated yet. -/
def NothingDelegated (store : DelegationStore) : Prop :=
  store.delegations = [] ∧ (store.sessions.map SessionRow.id).Nodup
    ∧ ∀ session ∈ store.sessions, session.delegationId = none

theorem NothingDelegated.sound {store : DelegationStore} (begun : NothingDelegated store) :
    SoundStore store := by
  obtain ⟨empty, distinct, unbound⟩ := begun
  have none : ∀ row ∈ store.delegations, False := by
    rw [empty]
    exact fun _ mem => not_mem_nil mem
  constructor
  · rw [empty]
    exact nodup_nil
  · exact distinct
  · exact fun row mem => (none row mem).elim
  · intro session mem delegationId bound
    rw [unbound session mem] at bound
    cases bound
  · exact fun row mem => (none row mem).elim
  · exact fun row mem => (none row mem).elim

abbrev StoreState := Interleaving DelegationStore StoreProcess

def storeMachine : Machine StoreState (Library.Schedule StoreProcess StoreChoice) :=
  storeProgram.machine NothingDelegated

theorem storeMachine_annotated {state : StoreState} (reaches : storeMachine.Reaches state) :
    storeProgram.Annotated SoundStore StoreAssertion state := by
  apply Program.Annotated.reaches (fun store begun => begun.sound) _ _ _ reaches
  · exact fun store process _ begins => begins_assertion begins
  · intro store process choice after next sound asserted moves
    obtain ⟨effect, established⟩ := move_effect sound asserted moves
    exact ⟨effect.sound sound, established⟩
  · intro store process choice after next other sound asserted moves apart _ others
    exact others.stable (move_effect sound asserted moves).1 sound apart

/-- A delegation that is not running has closed mailboxes: no subagent of it has an
input that is queued or being consumed. -/
theorem closed_delegation_mailboxes {state : StoreState} (reaches : storeMachine.Reaches state) :
    ∀ row ∈ state.shared.delegations, row.status ≠ .running →
      ∀ session ∈ state.shared.sessions, session.delegationId = some row.id →
        ∀ input ∈ session.mailbox, input.status ≠ .queued ∧ input.status ≠ .consuming := by
  intro row mem ended session inSessions bound input inMailbox
  have sound := (storeMachine_annotated reaches).invariant
  have quiet := sound.closed row mem ended session
    (mem_subagents_iff.mpr ⟨inSessions, bound⟩) input inMailbox
  rw [MailboxRow.isActive, Bool.or_eq_false_iff] at quiet
  exact ⟨by simpa using quiet.1, by simpa using quiet.2⟩

/-- An input that waits while the delegation is cancelled is refused, and the task of
the subagent is cancelled. -/
theorem closed_delegation_mailboxes_cancelled :
    ∃ state : StoreState,
      state.shared.delegations.map DelegationRow.status = [.cancelling]
        ∧ (state.shared.sessions.map fun session => session.mailbox.map MailboxRow.status) =
            [[], [.cancelled]]
        ∧ ∀ row ∈ state.shared.delegations, row.status ≠ .running →
            ∀ session ∈ state.shared.sessions, session.delegationId = some row.id →
              ∀ input ∈ session.mailbox, input.status ≠ .queued ∧ input.status ≠ .consuming := by
  let fork : ContextFork :=
    { childSessionId := "child"
      subagentType := .full
      entries := []
      activeLeafId := none
      inputId := "input_1"
      task := .text "look"
      createdAt := 1 }
  let message : UserInput :=
    { sessionId := "child"
      priority := .followUp
      content := .userMessage (.text "go on")
      clientInputId := none
      context :=
        { reusedByOtherChild := false
          routeRead := .ok ()
          inputId := "input_2"
          createdAt := 2
          promotedAt := 2 } }
  let start : StoreState :=
    { shared := { delegations := [], sessions := [DelegationHistory.idleParent] }, processes := [] }
  let proceed (steps : Nat) : List (Library.Schedule StoreProcess StoreChoice) :=
    List.replicate steps (.move 0 .proceed)
  let schedule : List (Library.Schedule StoreProcess StoreChoice) :=
    .begin (.create DelegationHistory.launchOne { id := "delegation", attemptId := "attempt" } false)
      :: proceed 2 ++ .begin (.launch "delegation" .begun) :: proceed 4
      ++ [.move 0 (.spawn fork), .abort 0, .begin (.enqueueInput message .begun),
        .move 0 .proceed, .begin (.cancel "parent" "delegation" "attempt")]
      ++ proceed 6 ++ .abort 0 :: proceed 3
  have ran : (schedule.foldlM storeProgram.step start).map
      (fun state => (state.shared.delegations.map DelegationRow.status,
        state.shared.sessions.map fun session => session.mailbox.map MailboxRow.status)) =
        some ([.cancelling], [[], [.cancelled]]) := by
    decide +kernel
  obtain ⟨state, enabled, seen⟩ := map_eq_some_iff.mp ran
  have initially : Program.Initially NothingDelegated start := by
    refine ⟨⟨rfl, nodup_singleton _, ?_⟩, rfl⟩
    intro session mem
    rw [mem_singleton.mp mem]
    rfl
  have reaches : storeMachine.Reaches state := .run (.start initially) enabled
  exact ⟨state, congrArg Prod.fst seen, congrArg Prod.snd seen, closed_delegation_mailboxes reaches⟩

end PiRelay.Store
