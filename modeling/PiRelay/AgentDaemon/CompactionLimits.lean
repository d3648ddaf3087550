import PiRelay.AgentDaemon.AutoCompaction

/-! Two limits of automatic compactions. Failures suppress them, as far as the decision
sees the failures; and a context that was compacted twice in a row is not compacted a third
time. Both compare what the store holds with the copy that a request took along. -/
namespace PiRelay.Runtime

open AgentVocab Session Option
open Library (Machine)

theorem checkCompactionEligible_some {request : ModelRequest}
    {discovered : Option ProviderModelMetadata} {sourceLeafId : EntryId} {limit : Option Nat}
    (eligible : checkCompactionEligible request discovered = some (sourceLeafId, limit)) :
    request.contextLeafId = some sourceLeafId ∧ request.metadata.autoState.suppressed = false ∧
      recompactionLimitReached request.metadata.autoState sourceLeafId = false := by
  rw [checkCompactionEligible] at eligible
  split at eligible
  · cases eligible
  obtain ⟨_, isContext, eligible⟩ := bind_eq_some_iff.mp eligible
  simp only at eligible
  split at eligible
  · cases eligible
  rename_i allowed
  split at eligible
  · cases eligible
  rename_i below
  split at eligible
  · cases eligible
  split at eligible
  · cases eligible
    rw [Bool.or_eq_true, not_or, Bool.not_eq_true] at allowed
    exact ⟨isContext, allowed.1, by simpa using below⟩
  · cases eligible

theorem gateModelDispatch_compact {request : ModelRequest}
    {discovered : Option ProviderModelMetadata} {endsInSummary : Bool} {count : TokenCount}
    {sourceLeafId : EntryId}
    (compacts : gateModelDispatch request discovered endsInSummary count = .compact sourceLeafId) :
    ∃ limit, checkCompactionEligible request discovered = some (sourceLeafId, some limit) := by
  rw [gateModelDispatch] at compacts
  split at compacts
  · cases compacts
  · cases compacts
  · rename_i leafId limit eligible
    split at compacts
    · cases compacts
    · split at compacts
      · cases compacts
      · cases compacts
        exact ⟨limit, eligible⟩
      · split at compacts
        · cases compacts
        · cases compacts
          exact ⟨limit, eligible⟩

namespace CompactingSession

variable {session after : CompactingSession}
variable {label : CompactionStep}

theorem decision_cases (taken : session.step label = some after)
    (decides : (∃ discovered endsInSummary count, label = .gate discovered endsInSummary count) ∨
      ∃ discovered, label = .recoverOverflow discovered) :
    ∃ request, session.request = some request ∧ after.stored = session.stored ∧
      ((∃ discovered sourceLeafId limit,
          checkCompactionEligible request discovered = some (sourceLeafId, limit) ∧
            after = session.startCompaction request sourceLeafId) ∨
        after.compaction = session.compaction ∧
          ∀ next, after.request = some next → next.metadata = request.metadata) := by
  rcases decides with ⟨discovered, endsInSummary, count, rfl⟩ | ⟨discovered, rfl⟩
  · rw [step] at taken
    obtain ⟨request, isRequest, taken⟩ := bind_eq_some_iff.mp taken
    refine ⟨request, isRequest, ?_⟩
    split at taken
    · cases taken
    · split at taken
      · cases taken
        exact ⟨rfl, .inr ⟨rfl, fun next isNext => by rw [← Option.some.inj isNext]⟩⟩
      · rename_i sourceLeafId compacts
        cases taken
        obtain ⟨limit, eligible⟩ := gateModelDispatch_compact compacts
        exact ⟨rfl, .inl ⟨discovered, sourceLeafId, some limit, eligible, rfl⟩⟩
      · cases taken
        exact ⟨rfl, .inr ⟨rfl, fun _ isNext => (nomatch isNext)⟩⟩
  · rw [step] at taken
    obtain ⟨request, isRequest, taken⟩ := bind_eq_some_iff.mp taken
    refine ⟨request, isRequest, ?_⟩
    split at taken
    · split at taken
      · rename_i sourceLeafId limit eligible
        cases taken
        exact ⟨rfl, .inl ⟨discovered, sourceLeafId, limit, eligible, rfl⟩⟩
      · cases taken
        exact ⟨rfl, .inr ⟨rfl, fun _ isNext => (nomatch isNext)⟩⟩
    · cases taken

/-- Where compactions are suppressed, so they are for the request there is, and none is
under way. -/
structure Suppresses (session : CompactingSession) : Prop where
  request : ∀ request, session.request = some request →
    session.stored.autoState.suppressed = true → request.metadata.autoState.suppressed = true
  compaction : ∀ compaction, session.compaction = some compaction → compaction.auto = true →
    session.stored.autoState.suppressed = false
  alone : session.compaction.isSome = true → session.request = none

/-- A request from memory takes a copy that suppresses compactions if the store does: the
configuration was read after the failure that suppressed them. -/
def RequestsCurrent (session : CompactingSession) : CompactionStep → Prop
  | .requestModel _ => session.stored.autoState.suppressed = true →
      ∀ metadata, session.active = some metadata → metadata.autoState.suppressed = true
  | _ => True

instance (session : CompactingSession) (label : CompactionStep) :
    Decidable (session.RequestsCurrent label) :=
  match label with
  | .requestModel _ =>
    inferInstanceAs (Decidable (_ → ∀ metadata, session.active = some metadata → _))
  | .readConfig | .install | .unload | .dispatchReady _ | .gate _ _ _ | .recoverOverflow _
  | .respond _ | .abandon | .compactManually _ | .complete _ _ | .fail _ =>
    inferInstanceAs (Decidable True)

theorem Suppresses.decided (suppresses : session.Suppresses)
    (taken : session.step label = some after)
    (decides : (∃ discovered endsInSummary count, label = .gate discovered endsInSummary count) ∨
      ∃ discovered, label = .recoverOverflow discovered) : after.Suppresses := by
  obtain ⟨request, isRequest, stored, starts | ⟨same, requests⟩⟩ := decision_cases taken decides
  · obtain ⟨discovered, _, _, eligible, rfl⟩ := starts
    have allowed := (checkCompactionEligible_some eligible).2.1
    refine ⟨fun _ isRequest => (nomatch isRequest), fun _ _ _ => ?_, fun _ => rfl⟩
    by_contra suppressed
    rw [Bool.not_eq_false] at suppressed
    cases allowed.symm.trans (suppresses.request request isRequest suppressed)
  · refine ⟨?_, ?_, ?_⟩
    · intro next isNext suppressed
      rw [stored] at suppressed
      rw [requests next isNext]
      exact suppresses.request request isRequest suppressed
    · intro compaction isCompaction auto
      rw [stored]
      exact suppresses.compaction compaction (same.symm.trans isCompaction) auto
    · intro isSome
      rw [same] at isSome
      cases isRequest.symm.trans (suppresses.alone isSome)

theorem isIdle_none (idle : session.isIdle) :
    session.request = none ∧ session.compaction = none := by
  rw [isIdle, Bool.and_eq_true, isNone_iff_eq_none, isNone_iff_eq_none] at idle
  exact idle

/-- A step with current requests keeps the suppression in force. -/
theorem Suppresses.step (suppresses : session.Suppresses) (current : session.RequestsCurrent label)
    (taken : session.step label = some after) : after.Suppresses := by
  cases label with
  | readConfig | unload =>
    cases taken
    exact ⟨suppresses.request, suppresses.compaction, suppresses.alone⟩
  | install =>
    obtain ⟨metadata, -, rfl⟩ := map_eq_some_iff.mp taken
    exact ⟨suppresses.request, suppresses.compaction, suppresses.alone⟩
  | requestModel =>
    rw [CompactingSession.step] at taken
    split at taken
    · rename_i idle
      have none := (isIdle_none idle).2
      obtain ⟨metadata, isActive, rfl⟩ := map_eq_some_iff.mp taken
      refine ⟨?_, suppresses.compaction, ?_⟩
      · intro request isRequest suppressed
        cases isRequest
        exact current suppressed metadata isActive
      · intro isSome
        rw [none] at isSome
        cases isSome
    · cases taken
  | dispatchReady =>
    rw [CompactingSession.step] at taken
    split at taken
    · rename_i none
      cases taken
      refine ⟨?_, suppresses.compaction, ?_⟩
      · intro request isRequest suppressed
        cases isRequest
        exact suppressed
      · intro isSome
        rw [isNone_iff_eq_none.mp none] at isSome
        cases isSome
    · cases taken
  | gate discovered endsInSummary count =>
    exact suppresses.decided taken (.inl ⟨discovered, endsInSummary, count, rfl⟩)
  | recoverOverflow discovered => exact suppresses.decided taken (.inr ⟨discovered, rfl⟩)
  | respond =>
    obtain ⟨request, isRequest, rfl⟩ := map_eq_some_iff.mp taken
    have none : session.compaction = none := by
      by_contra isSome
      have alone := suppresses.alone (isSome_iff_ne_none.mpr isSome)
      cases isRequest.symm.trans alone
    refine ⟨fun _ isRequest => (nomatch isRequest), ?_, fun _ => rfl⟩
    intro compaction isCompaction
    cases none.symm.trans isCompaction
  | abandon =>
    cases taken
    exact ⟨fun _ isRequest => (nomatch isRequest),
      fun _ isCompaction => (nomatch isCompaction), fun _ => rfl⟩
  | compactManually =>
    rw [CompactingSession.step] at taken
    split at taken
    · rename_i idle
      cases taken
      refine ⟨suppresses.request, ?_, fun _ => (isIdle_none idle).1⟩
      intro compaction isCompaction auto
      cases isCompaction
      cases auto
    · cases taken
  | complete =>
    obtain ⟨compaction, isCompaction, rfl⟩ := map_eq_some_iff.mp taken
    have noRequest := suppresses.alone (by rw [isCompaction]; rfl)
    have ended : ∀ {ending : CompactingSession}, ending.compaction = none →
        ending.compaction.isSome → ending.request = none := by
      intro ending none isSome
      rw [none] at isSome
      cases isSome
    split
    · refine ⟨?_, fun _ isCompaction => (nomatch isCompaction), ended rfl⟩
      intro request isRequest suppressed
      cases suppressed
    · refine ⟨?_, fun _ isCompaction => (nomatch isCompaction), ended rfl⟩
      intro request isRequest
      cases noRequest.symm.trans isRequest
  | fail =>
    obtain ⟨compaction, -, rfl⟩ := map_eq_some_iff.mp taken
    exact ⟨fun _ isRequest => (nomatch isRequest),
      fun _ isCompaction => (nomatch isCompaction), fun _ => rfl⟩

/-- The runs in which no request takes a copy that a failure has overtaken. -/
def currentRuns : Machine CompactingSession CompactionStep := runs.guarded RequestsCurrent

theorem suppresses_of_reaches (reaches : currentRuns.Reaches session) : session.Suppresses := by
  apply reaches.invariant
  · rintro session ⟨-, -, noRequest, noCompaction⟩
    refine ⟨?_, ?_, fun _ => noRequest⟩
    · intro request isRequest
      cases noRequest.symm.trans isRequest
    · intro compaction isCompaction
      cases noCompaction.symm.trans isCompaction
  · rintro session label after - suppresses ⟨current, taken⟩
    exact suppresses.step current taken

theorem step_stored (taken : session.step label = some after) :
    after.stored = session.stored ∨
      label = .respond true ∧ after.compaction = session.compaction ∨
      (∃ newLeafId installs, label = .complete newLeafId installs) ∧ after.compaction = none ∨
      (∃ error, label = .fail error) ∧
        ∃ compaction, session.compaction = some compaction ∧ compaction.auto := by
  cases label with
  | install =>
    obtain ⟨metadata, -, rfl⟩ := map_eq_some_iff.mp taken
    exact .inl rfl
  | requestModel =>
    rw [CompactingSession.step] at taken
    split at taken
    · obtain ⟨metadata, -, rfl⟩ := map_eq_some_iff.mp taken
      exact .inl rfl
    · cases taken
  | dispatchReady | compactManually =>
    rw [CompactingSession.step] at taken
    split at taken
    · cases taken
      exact .inl rfl
    · cases taken
  | gate discovered endsInSummary count =>
    obtain ⟨_, _, stored, _⟩ := decision_cases taken (.inl ⟨discovered, endsInSummary, count, rfl⟩)
    exact .inl stored
  | recoverOverflow discovered =>
    obtain ⟨_, _, stored, _⟩ := decision_cases taken (.inr ⟨discovered, rfl⟩)
    exact .inl stored
  | respond resets =>
    obtain ⟨-, -, rfl⟩ := map_eq_some_iff.mp taken
    cases resets with
    | false => exact .inl rfl
    | true => exact .inr (.inl ⟨rfl, rfl⟩)
  | complete newLeafId installs =>
    obtain ⟨compaction, -, rfl⟩ := map_eq_some_iff.mp taken
    refine .inr (.inr (.inl ⟨⟨newLeafId, installs, rfl⟩, ?_⟩))
    split <;> rfl
  | fail error =>
    obtain ⟨compaction, isCompaction, rfl⟩ := map_eq_some_iff.mp taken
    by_cases auto : compaction.auto
    · exact .inr (.inr (.inr ⟨⟨error, rfl⟩, compaction, isCompaction, auto⟩))
    · exact .inl (if_neg auto)
  | _ =>
    cases taken
    exact .inl rfl

/-- While the store suppresses automatic compactions none is created, and only an answer of
the model or a compaction that succeeds lifts the suppression. -/
theorem suppression_holds (reaches : currentRuns.Reaches session) {label : CompactionStep}
    (taken : currentRuns.step session label after)
    (suppressed : session.stored.autoState.suppressed = true) :
    ¬ StartsAuto session after ∧
      (after.stored.autoState.suppressed = true ∨ label = .respond true ∨
        ∃ newLeafId installs, label = .complete newLeafId installs) := by
  have suppresses := suppresses_of_reaches reaches
  have later := suppresses.step taken.1 taken.2
  rcases step_stored taken.2 with
    stored | ⟨responds, same⟩ | ⟨completes, ended⟩ | ⟨-, compaction, isCompaction, auto⟩
  · have still : after.stored.autoState.suppressed := by
      rw [stored]
      exact suppressed
    refine ⟨?_, .inl still⟩
    rintro ⟨-, compaction, isCompaction, auto⟩
    cases still.symm.trans (later.compaction compaction isCompaction auto)
  · refine ⟨?_, .inr (.inl responds)⟩
    rintro ⟨none, compaction, isCompaction, -⟩
    cases (same.trans none).symm.trans isCompaction
  · refine ⟨?_, .inr (.inr completes)⟩
    rintro ⟨-, compaction, isCompaction, -⟩
    cases ended.symm.trans isCompaction
  · cases suppressed.symm.trans (suppresses.compaction compaction isCompaction auto)

/-- One failure is enough to suppress. -/
def failsOnce : CompactingSession where
  stored := { harness := false, policy := .missing, maxConsecutiveFailures := some 1, autoState := {} }
  read := none
  active := none
  request := none
  compaction := none

def largeWindow : ProviderModelMetadata where
  maxInputTokens := some 200000
  recommendedAutoCompactTokens := none

/-- The first compaction fails, and the next queued input is taken up. -/
def queuedAfterFailure : List CompactionStep :=
  [.readConfig, .install, .requestModel (some "leaf_1"),
    .gate (some largeWindow) false (.counted 180000), .fail "provider unavailable",
    .requestModel (some "leaf_2")]

/-- Its request is compacted again, although the store suppresses that. -/
theorem suppressed_session_compacts_again :
    ¬ ∀ session label after, runs.Reaches session → runs.step session label after →
      session.stored.autoState.suppressed = true → ¬ StartsAuto session after := by
  intro never
  have ran : (queuedAfterFailure.foldlM step failsOnce).map
      (fun session => (session.stored.autoState.suppressed, session.compaction,
        (session.step (.gate (some largeWindow) false (.counted 180000))).map
          fun after => after.compaction.map RunningCompaction.auto)) =
        some (true, none, some (some true)) := by
    decide +kernel
  obtain ⟨session, enabled, seen⟩ := map_eq_some_iff.mp ran
  have reaches : runs.Reaches session := .run (.start ⟨rfl, rfl, rfl, rfl⟩) enabled
  obtain ⟨suppressed, seen⟩ := Prod.mk.inj seen
  obtain ⟨none, seen⟩ := Prod.mk.inj seen
  obtain ⟨after, taken, isAuto⟩ := map_eq_some_iff.mp seen
  obtain ⟨compaction, isCompaction, auto⟩ := map_eq_some_iff.mp isAuto
  exact never session _ after reaches taken suppressed ⟨none, compaction, isCompaction, auto⟩

/-- The session is unloaded before its next input, and loaded with what is stored. -/
def reloadedAfterFailure : List CompactionStep :=
  [.readConfig, .install, .requestModel (some "leaf_1"),
    .gate (some largeWindow) false (.counted 180000), .fail "provider unavailable", .unload,
    .readConfig, .install, .requestModel (some "leaf_2")]

theorem reloaded_session_does_not_compact : ∃ session : CompactingSession,
    session.stored.autoState.suppressed = true ∧ session.request.isSome = true ∧
      ∀ label after, currentRuns.step session label after → ¬ StartsAuto session after := by
  have ran : (reloadedAfterFailure.foldlM
      (fun session label =>
        if decide (session.RequestsCurrent label) then session.step label else none)
      failsOnce).map
        (fun session => (session.stored.autoState.suppressed, session.request.isSome)) =
          some (true, true) := by
    decide +kernel
  obtain ⟨session, enabled, seen⟩ := map_eq_some_iff.mp ran
  have start : currentRuns.Reaches failsOnce := .start ⟨rfl, rfl, rfl, rfl⟩
  have sound : ∀ (session : CompactingSession) (label : CompactionStep),
      decide (session.RequestsCurrent label) → session.RequestsCurrent (id label) :=
    fun _ _ checked => of_decide_eq_true checked
  have reaches := Machine.Reaches.checkedRun sound start enabled
  obtain ⟨suppressed, requested⟩ := Prod.mk.inj seen
  exact ⟨session, suppressed, requested, fun label after taken =>
    (suppression_holds reaches taken suppressed).1⟩

end CompactingSession

end PiRelay.Runtime
