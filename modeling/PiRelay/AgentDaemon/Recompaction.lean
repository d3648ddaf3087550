import PiRelay.AgentDaemon.CompactionLimits

/-! A context that is compacted twice in a row is not compacted a third time. The leaf and
the counter that a success writes are what the next decision compares; they last until the
next success, or until the model answers. -/
namespace PiRelay.Runtime

open AgentVocab Session List Option
open Library (Machine)

/-- What a run has behind it: compactions that succeeded, and resets of the counters. -/
inductive CompactionMark where
  | compacted (auto : Bool) (sourceLeafId installedLeafId : EntryId)
  | reset
deriving DecidableEq

/-- A session with its marks, newest first, and with what has been written to its automatic
state from the latest success on. -/
structure CompactionHistory where
  session : CompactingSession
  marks : List CompactionMark
  written : List CompactionAutoState

namespace CompactionHistory

variable (history : CompactionHistory)

def record (label : CompactionStep) (after : CompactingSession) : CompactionHistory :=
  match label, history.session.compaction with
  | .complete newLeafId _, some compaction =>
    { session := after
      marks := .compacted compaction.auto compaction.sourceLeafId newLeafId :: history.marks
      written := [after.stored.autoState] }
  | .respond true, _ =>
    { session := after
      marks := .reset :: history.marks
      written := after.stored.autoState :: history.written }
  | _, _ => { history with session := after, written := after.stored.autoState :: history.written }

def step (label : CompactionStep) : Option CompactionHistory :=
  (history.session.step label).map (history.record label)

def Initial : Prop :=
  history.session.Initial ∧ history.marks = [] ∧
    history.written = [history.session.stored.autoState]

/-- The request that a decision looks at carries what the latest success wrote, or what has
been written since. -/
def SeesLatest : CompactionStep → Prop
  | .gate _ _ _ | .recoverOverflow _ => ∀ request, history.session.request = some request →
      request.metadata.autoState ∈ history.written
  | _ => True

def runs : Machine CompactionHistory CompactionStep :=
  (Machine.ofSteps Initial step).guarded SeesLatest

/-- The two latest marks are automatic compactions, the second of what the first installed. -/
inductive Recompacted : List CompactionMark → EntryId → Prop where
  | chain (firstSourceLeafId middleLeafId lastLeafId : EntryId) (earlier : List CompactionMark) :
      Recompacted
        (.compacted true middleLeafId lastLeafId
          :: .compacted true firstSourceLeafId middleLeafId :: earlier) lastLeafId

/-- Three automatic compactions in a row, each of what the one before it installed. -/
def ThreeInARow (marks : List CompactionMark) : Prop :=
  ∃ later firstSourceLeafId firstLeafId secondLeafId thirdLeafId earlier,
    marks = later ++ [.compacted true secondLeafId thirdLeafId,
      .compacted true firstLeafId secondLeafId, .compacted true firstSourceLeafId firstLeafId]
      ++ earlier

variable {marks : List CompactionMark}

theorem threeInARow_cons {mark : CompactionMark} (three : ThreeInARow (mark :: marks)) :
    ThreeInARow marks ∨ ∃ secondLeafId thirdLeafId,
      mark = .compacted true secondLeafId thirdLeafId ∧ Recompacted marks secondLeafId := by
  obtain ⟨later, firstSource, first, second, third, earlier, isMarks⟩ := three
  cases later with
  | nil =>
    cases isMarks
    exact .inr ⟨second, third, rfl, .chain firstSource first second earlier⟩
  | cons _ rest =>
    cases isMarks
    exact .inl ⟨rest, firstSource, first, second, third, earlier, rfl⟩

/-- What the automatic state says of the latest success. -/
structure TellsOf (marks : List CompactionMark) (autoState : CompactionAutoState) : Prop where
  leaf : ∀ auto sourceLeafId installedLeafId earlier,
    marks = .compacted auto sourceLeafId installedLeafId :: earlier →
      autoState.lastSuccessLeafId = some installedLeafId
  count : ∀ installedLeafId, Recompacted marks installedLeafId →
    1 ≤ autoState.consecutiveRecompactions

theorem TellsOf.limit {autoState : CompactionAutoState} {installedLeafId : EntryId}
    (tells : TellsOf marks autoState) (recompacted : Recompacted marks installedLeafId) :
    recompactionLimitReached autoState installedLeafId := by
  have count := tells.count installedLeafId recompacted
  cases recompacted with
  | chain =>
    rw [recompactionLimitReached, tells.leaf _ _ _ _ rfl, Bool.and_eq_true, decide_eq_true_eq]
    exact ⟨beq_self_eq_true _, count⟩

/-- Everything written since the latest success tells of it, and a compaction under way was
decided on with what was written. -/
structure Bounded (history : CompactionHistory) : Prop where
  current : history.session.stored.autoState ∈ history.written
  tells : ∀ autoState ∈ history.written, TellsOf history.marks autoState
  decided : ∀ compaction, history.session.compaction = some compaction →
    compaction.auto = true → ∃ autoState ∈ history.written,
      recompactionLimitReached autoState compaction.sourceLeafId = false
  never : ¬ ThreeInARow history.marks

variable {history after : CompactionHistory}

theorem tells_reset (autoState : CompactionAutoState) :
    TellsOf (.reset :: marks) autoState where
  leaf := fun _ _ _ _ isMarks => by cases isMarks
  count := nofun

theorem tells_failure {metadata : SessionMetadata} (tells : TellsOf marks metadata.autoState)
    (fallbackMaxFailures : Nat) (sourceLeafId : EntryId) (error : String) :
    TellsOf marks
      (metadata.nextAutoCompactionFailure fallbackMaxFailures sourceLeafId error).autoState :=
  ⟨tells.leaf, tells.count⟩

theorem tells_success {metadata : SessionMetadata} (tells : TellsOf marks metadata.autoState)
    (auto : Bool) (sourceLeafId newLeafId : EntryId) :
    TellsOf (.compacted auto sourceLeafId newLeafId :: marks)
      (metadata.nextCompactionSuccess sourceLeafId newLeafId (!auto)).autoState := by
  constructor
  · intro isAuto source installed earlier isMarks
    cases isMarks
    rfl
  · intro installed recompacted
    cases recompacted with
    | chain =>
      have leaf := tells.leaf _ _ _ _ rfl
      show 1 ≤ if _ then _ else _
      rw [leaf, beq_self_eq_true]
      show 1 ≤ saturatingAdd _
      rw [saturatingAdd]
      omega

section

variable (bounded : history.Bounded)
include bounded

theorem Bounded.quiet {session : CompactingSession}
    (stored : session.stored.autoState = history.session.stored.autoState ∨
      TellsOf history.marks session.stored.autoState)
    (decided : ∀ compaction, session.compaction = some compaction → compaction.auto →
      ∃ autoState ∈ history.written,
        recompactionLimitReached autoState compaction.sourceLeafId = false) :
    Bounded
      { history with session, written := session.stored.autoState :: history.written } where
  current := mem_cons_self
  tells := by
    intro autoState isWritten
    rcases mem_cons.mp isWritten with rfl | before
    · rcases stored with same | tells
      · rw [same]
        exact bounded.tells _ bounded.current
      · exact tells
    · exact bounded.tells autoState before
  decided := by
    intro compaction isCompaction auto
    obtain ⟨autoState, isWritten, allowed⟩ := decided compaction isCompaction auto
    exact ⟨autoState, .tail _ isWritten, allowed⟩
  never := bounded.never

theorem Bounded.decision {label : CompactionStep} {session : CompactingSession}
    (sees : history.SeesLatest label) (taken : history.session.step label = some session)
    (decides : (∃ discovered endsInSummary count, label = .gate discovered endsInSummary count) ∨
      ∃ discovered, label = .recoverOverflow discovered) :
    Bounded
      { history with session, written := session.stored.autoState :: history.written } := by
  have written : ∀ request, history.session.request = some request →
      request.metadata.autoState ∈ history.written := by
    rcases decides with ⟨_, _, _, rfl⟩ | ⟨_, rfl⟩ <;> exact sees
  obtain ⟨request, isRequest, stored, starts | ⟨same, -⟩⟩ :=
    CompactingSession.decision_cases taken decides
  · obtain ⟨discovered, _, _, eligible, rfl⟩ := starts
    refine bounded.quiet (.inl rfl) fun compaction isCompaction _ => ?_
    cases isCompaction
    exact ⟨_, written request isRequest, (checkCompactionEligible_some eligible).2.2⟩
  · refine bounded.quiet (.inl (congrArg _ stored)) fun compaction isCompaction auto => ?_
    exact bounded.decided compaction (same.symm.trans isCompaction) auto

/-- A step that sees the latest success keeps the bound. -/
theorem Bounded.step {label : CompactionStep} (sees : history.SeesLatest label)
    (recorded : history.step label = some after) : after.Bounded := by
  obtain ⟨session, taken, rfl⟩ := map_eq_some_iff.mp recorded
  cases label with
  | readConfig | unload =>
    cases taken
    exact bounded.quiet (.inl rfl) bounded.decided
  | install =>
    obtain ⟨metadata, -, rfl⟩ := map_eq_some_iff.mp taken
    exact bounded.quiet (.inl rfl) bounded.decided
  | requestModel =>
    rw [CompactingSession.step] at taken
    split at taken
    · obtain ⟨metadata, -, rfl⟩ := map_eq_some_iff.mp taken
      exact bounded.quiet (.inl rfl) bounded.decided
    · cases taken
  | dispatchReady =>
    rw [CompactingSession.step] at taken
    split at taken
    · cases taken
      exact bounded.quiet (.inl rfl) bounded.decided
    · cases taken
  | gate discovered endsInSummary count =>
    exact bounded.decision sees taken (.inl ⟨discovered, endsInSummary, count, rfl⟩)
  | recoverOverflow discovered => exact bounded.decision sees taken (.inr ⟨discovered, rfl⟩)
  | respond resets =>
    obtain ⟨-, -, rfl⟩ := map_eq_some_iff.mp taken
    cases resets with
    | false => exact bounded.quiet (.inl rfl) bounded.decided
    | true =>
      refine ⟨.head _, fun autoState _ => tells_reset autoState, ?_, ?_⟩
      · intro compaction isCompaction auto
        obtain ⟨autoState, isWritten, allowed⟩ := bounded.decided compaction isCompaction auto
        exact ⟨autoState, .tail _ isWritten, allowed⟩
      · intro three
        rcases threeInARow_cons three with before | ⟨_, _, isCompacted, -⟩
        · exact bounded.never before
        · cases isCompacted
  | abandon =>
    cases taken
    exact bounded.quiet (.inl rfl) fun _ isCompaction => by cases isCompaction
  | compactManually =>
    rw [CompactingSession.step] at taken
    split at taken
    · cases taken
      refine bounded.quiet (.inl rfl) fun compaction isCompaction auto => ?_
      cases isCompaction
      cases auto
    · cases taken
  | complete newLeafId installs =>
    obtain ⟨compaction, isCompaction, completed⟩ := map_eq_some_iff.mp taken
    have outcome : session.compaction = none ∧ session.stored =
        history.session.stored.nextCompactionSuccess compaction.sourceLeafId newLeafId
          (!compaction.auto) := by
      rw [← completed]
      split <;> exact ⟨rfl, rfl⟩
    obtain ⟨ended, stored⟩ := outcome
    have isRecord : history.record (.complete newLeafId installs) session =
        { session
          marks := .compacted compaction.auto compaction.sourceLeafId newLeafId :: history.marks
          written := [session.stored.autoState] } := by
      simp only [record, isCompaction]
    rw [isRecord]
    refine ⟨.head _, ?_, ?_, ?_⟩
    · intro autoState isWritten
      rw [mem_singleton.mp isWritten, stored]
      exact tells_success (bounded.tells _ bounded.current) compaction.auto _ newLeafId
    · intro other isOther
      cases ended.symm.trans isOther
    · -- The decision on a third one has seen the two before it.
      intro three
      rcases threeInARow_cons three with before | ⟨second, third, isCompacted, recompacted⟩
      · exact bounded.never before
      · obtain ⟨auto, rfl, -⟩ := CompactionMark.compacted.inj isCompacted
        obtain ⟨autoState, isWritten, allowed⟩ := bounded.decided compaction isCompaction auto
        cases allowed.symm.trans ((bounded.tells autoState isWritten).limit recompacted)
  | fail error =>
    obtain ⟨compaction, -, rfl⟩ := map_eq_some_iff.mp taken
    refine bounded.quiet ?_ fun _ isOther => by cases isOther
    by_cases auto : compaction.auto
    · refine .inr ?_
      rw [if_pos auto]
      exact tells_failure (bounded.tells _ bounded.current) _ _ error
    · refine .inl ?_
      rw [if_neg auto]

end

theorem bounded_of_reaches (reaches : runs.Reaches history) : history.Bounded := by
  apply reaches.invariant
  · rintro initial ⟨⟨-, -, -, noCompaction⟩, noMarks, written⟩
    constructor
    · rw [written]
      exact (.head _)
    · intro autoState _
      rw [noMarks]
      constructor
      · intro auto source installed earlier isMarks
        cases isMarks
      · intro installed recompacted
        cases recompacted
    · intro compaction isCompaction
      cases noCompaction.symm.trans isCompaction
    · rw [noMarks]
      rintro ⟨_, _, _, _, _, earlier, isMarks⟩
      simp at isMarks
  · rintro history label after - bounded ⟨sees, taken⟩
    exact bounded.step sees taken

/-- No three automatic compactions follow each other on one context, and after two of them
a request for the leaf that the second installed is sent, or ends in the error of the model. -/
theorem recompaction_bounded (reaches : runs.Reaches history) :
    ¬ ThreeInARow history.marks ∧
      ∀ installedLeafId, Recompacted history.marks installedLeafId →
        ∀ request, history.session.request = some request →
          request.contextLeafId = some installedLeafId →
            request.metadata.autoState ∈ history.written →
              (∀ discovered endsInSummary count,
                gateModelDispatch request discovered endsInSummary count = .dispatch) ∧
              ∀ discovered, checkCompactionEligible request discovered = none := by
  have bounded := bounded_of_reaches reaches
  refine ⟨bounded.never, ?_⟩
  intro installedLeafId recompacted request _ isContext isWritten
  have refused : ∀ discovered, checkCompactionEligible request discovered = none := by
    intro discovered
    cases eligible : checkCompactionEligible request discovered with
    | none => rfl
    | some found =>
      obtain ⟨_, _⟩ := found
      obtain ⟨isSource, -, allowed⟩ := checkCompactionEligible_some eligible
      cases isContext.symm.trans isSource
      cases allowed.symm.trans ((bounded.tells _ isWritten).limit recompacted)
  refine ⟨fun discovered endsInSummary count => ?_, refused⟩
  rw [gateModelDispatch, refused discovered]

/-- Two compactions of one context, the second after an overflow, and a third overflow. -/
def overflowsThrice : List CompactionStep :=
  [.readConfig, .install, .requestModel (some "leaf_1"),
    .gate (some CompactingSession.largeWindow) false (.counted 180000), .complete "leaf_2" true,
    .recoverOverflow (some CompactingSession.largeWindow), .complete "leaf_3" true]

instance (history : CompactionHistory) (label : CompactionStep) :
    Decidable (history.SeesLatest label) :=
  match label with
  | .gate _ _ _ | .recoverOverflow _ =>
    inferInstanceAs (Decidable (∀ request, history.session.request = some request → _))
  | .readConfig | .install | .unload | .requestModel _ | .dispatchReady _ | .respond _ | .abandon
  | .compactManually _ | .complete _ _ | .fail _ => inferInstanceAs (Decidable True)

/-- The third overflow is the error of the model. -/
theorem third_overflow_is_terminal : ∃ history : CompactionHistory,
    history.marks =
      [.compacted true "leaf_2" "leaf_3", .compacted true "leaf_1" "leaf_2"] ∧
    ¬ ThreeInARow history.marks ∧
    ∃ request, history.session.request = some request ∧
      ∀ discovered, checkCompactionEligible request discovered = none := by
  let start : CompactionHistory :=
    { session := CompactingSession.failsOnce
      marks := []
      written := [{}] }
  have initially : runs.Reaches start := .start ⟨⟨rfl, rfl, rfl, rfl⟩, rfl, rfl⟩
  have ran : (overflowsThrice.foldlM
      (fun history label => if decide (history.SeesLatest label) then history.step label else none)
      start).map
        (fun history => (history.marks, history.session.request.map fun request =>
          (request.contextLeafId, decide (request.metadata.autoState ∈ history.written)))) =
      some ([.compacted true "leaf_2" "leaf_3", .compacted true "leaf_1" "leaf_2"],
        some (some "leaf_3", true)) := by
    decide +kernel
  obtain ⟨history, enabled, seen⟩ := map_eq_some_iff.mp ran
  have sound : ∀ (history : CompactionHistory) (label : CompactionStep),
      decide (history.SeesLatest label) → history.SeesLatest (id label) :=
    fun _ _ checked => of_decide_eq_true checked
  have reaches : runs.Reaches history := Machine.Reaches.checkedRun sound initially enabled
  obtain ⟨isMarks, seen⟩ := Prod.mk.inj seen
  obtain ⟨request, isRequest, seen⟩ := map_eq_some_iff.mp seen
  obtain ⟨isContext, isWritten⟩ := Prod.mk.inj seen
  have recompacted : Recompacted history.marks "leaf_3" := by
    rw [isMarks]
    exact .chain "leaf_1" "leaf_2" "leaf_3" []
  obtain ⟨never, refuses⟩ := recompaction_bounded reaches
  exact ⟨history, isMarks, never, request, isRequest,
    (refuses "leaf_3" recompacted request isRequest isContext (of_decide_eq_true isWritten)).2⟩

end CompactionHistory

end PiRelay.Runtime
