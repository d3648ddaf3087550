import PiRelay.AgentStore.DelegationLifecycle

/-! What a parent session has room for. A launch is admitted against the delegations that
are in flight under the parent, and no call brings one back that is not; a launch that was
admitted once is answered from its row, whatever has become of it. -/
namespace PiRelay.Store

open DelegationStore List

open Library (Machine)

/-- A delegation keeps what it was admitted with, and never comes back in flight. -/
structure AdmissionMove (before after : DelegationRow) : Prop where
  move : DelegationMove before after
  launchKey : after.launchKey = before.launchKey
  launchShape : after.launchShape = before.launchShape
  kind : after.kind = before.kind

theorem AdmissionMove.refl (row : DelegationRow) : AdmissionMove row row :=
  ⟨.refl row, rfl, rfl, rfl⟩

theorem LifecycleMove.inFlight {before after : DelegationRow} (move : LifecycleMove before after)
    (inFlight : after.status.isInFlight) : before.status.isInFlight := by
  cases move with
  | stays status =>
    rw [← status]
    exact inFlight
  | cancels was | finishes was | tornDown was =>
    rw [was]
    rfl

/-- A row that the parent had room for. -/
structure Admitted (store : DelegationStore) (row : DelegationRow) : Prop where
  session : store.hasSession row.parentSessionId = true
  positive : 0 < row.expectedSubagents
  single : row.kind = .full → row.expectedSubagents = 1
  bounded : row.expectedSubagents ≤ maxReservedReadonlySlots
  unused : ∀ other ∈ store.delegations,
    ¬ (other.parentSessionId = row.parentSessionId ∧ other.launchKey = row.launchKey)
  full : row.kind = .full → store.inFlight row.parentSessionId .full = []
  fanout : row.kind = .readonlyFanout →
    ((store.inFlight row.parentSessionId .readonlyFanout).map DelegationRow.expectedSubagents).sum
      + row.expectedSubagents ≤ maxReservedReadonlySlots

/-- The rows there are take a move, or one that was admitted is added. -/
inductive AdmissionStep (store after : DelegationStore) : Prop where
  | moves {change : DelegationRow → DelegationRow}
      (isMap : after.delegations = store.delegations.map change)
      (moves : ∀ row ∈ store.delegations, AdmissionMove row (change row))
  | admits {row : DelegationRow} (isNew : after.delegations = store.delegations ++ [row])
      (sessions : after.sessions = store.sessions) (admitted : Admitted store row)

theorem AdmissionStep.same {store after : DelegationStore}
    (same : after.delegations = store.delegations) : AdmissionStep store after :=
  .moves (same.trans (map_id _).symm) fun row _ => .refl row

namespace DelegationStore

variable {store after : DelegationStore}

theorem moveDelegation_admission {admits : DelegationRow → Bool}
    {change : DelegationRow → DelegationRow} {row : DelegationRow} {moved : DelegationStore}
    (update : store.moveDelegation admits change = some (moved, row))
    (moves : ∀ row, admits row → AdmissionMove row (change row))
    (same : after.delegations = moved.delegations) : AdmissionStep store after := by
  obtain ⟨-, rfl⟩ := moveDelegation_some update
  refine .moves same fun row _ => ?_
  split
  · rename_i admitted
    exact moves row admitted
  · exact .refl row

theorem admitsKind_ok {request : CreateDelegationRequest} (admits : store.admitsKind request = .ok ()) :
    (request.kind = .full → store.inFlight request.parentSessionId .full = []) ∧
      (request.kind = .readonlyFanout →
        ((store.inFlight request.parentSessionId .readonlyFanout).map
          DelegationRow.expectedSubagents).sum + request.expectedSubagents ≤
            maxReservedReadonlySlots) := by
  cases hKind : request.kind with
  | full =>
    refine ⟨fun _ => ?_, nofun⟩
    simp only [admitsKind, hKind] at admits
    split at admits
    · rename_i isEmpty
      exact isEmpty_iff.mp isEmpty
    · cases admits
  | readonlyFanout =>
    refine ⟨nofun, fun _ => ?_⟩
    simp only [admitsKind, hKind] at admits
    split at admits
    · cases admits
    · rename_i fits
      exact Int.not_lt.mp fits

/-- A launch gets the row it has, or one that there was room for. -/
theorem createDelegationIdempotent_admits {request : CreateDelegationRequest}
    {drawn : DrawnDelegation} {row : DelegationRow}
    (creates : store.createDelegationIdempotent request drawn = .ok (after, row)) :
    AdmissionStep store after ∧ after.sessions = store.sessions := by
  rw [createDelegationIdempotent] at creates
  split at creates
  · cases creates
  rename_i positive
  split at creates
  · cases creates
  rename_i single
  split at creates
  · cases creates
  rename_i bounded
  split at creates
  · cases creates
  rename_i session
  split at creates
  · split at creates
    · cases creates
    · cases creates
      exact ⟨.same rfl, rfl⟩
  · rename_i unused
    split at creates
    · cases creates
    rename_i admits
    split at creates
    · cases creates
    cases creates
    obtain ⟨full, fanout⟩ := admitsKind_ok admits
    refine ⟨.admits rfl rfl ?_, rfl⟩
    constructor
    · show store.hasSession request.parentSessionId
      simpa using session
    · exact Int.not_le.mp positive
    · intro isFull
      by_contra other
      exact single ⟨isFull, other⟩
    · show request.expectedSubagents ≤ maxReservedReadonlySlots
      cases hKind : request.kind with
      | full =>
        have isOne : request.expectedSubagents = 1 := by
          by_contra other
          exact single ⟨hKind, other⟩
        rw [isOne]
        decide
      | readonlyFanout => exact Int.not_lt.mp fun exceeds => bounded ⟨hKind, exceeds⟩
    · intro other mem same
      rw [find?_eq_none] at unused
      apply unused other mem
      rw [Bool.and_eq_true, beq_iff_eq, beq_iff_eq]
      exact same
    · exact full
    · exact fanout

end DelegationStore

namespace DelegationHistory

theorem call_admission (history : DelegationHistory) (call : DelegationCall) :
    AdmissionStep history.store (history.call call).store := by
  have performs := history.call_performs call
  generalize history.call call = after at performs
  cases performs with
  | nothing | settles => exact .same rfl
  | creates creates => exact (createDelegationIdempotent_admits creates).1
  | moves moves step keeps ending =>
    refine moveDelegation_admission moves (fun row admitted => ?_) (Performs.delegations ending)
    obtain ⟨launchKey, launchShape, kind⟩ := keeps row
    exact ⟨step row admitted, launchKey, launchShape, kind⟩

/-- Sessions are not removed from under a delegation, which refers to its parent. -/
def KeepsParents (history : DelegationHistory) : DelegationCall → Prop
  | .sessionWork sessions => ∀ row ∈ history.store.delegations,
      sessions.any (·.id == row.parentSessionId) = true
  | _ => True

def admissions : Machine DelegationHistory DelegationCall := lifecycle.guarded KeepsParents

/-- What the admission keeps true of the table. -/
structure WithinCapacity (store : DelegationStore) : Prop where
  parents : ∀ row ∈ store.delegations, store.hasSession row.parentSessionId = true
  positive : ∀ row ∈ store.delegations, 0 < row.expectedSubagents
  single : ∀ row ∈ store.delegations, row.kind = .full → row.expectedSubagents = 1
  bounded : ∀ row ∈ store.delegations, row.expectedSubagents ≤ maxReservedReadonlySlots
  keys : (store.delegations.map fun row => (row.parentSessionId, row.launchKey)).Nodup
  full : ∀ parentSessionId, (store.inFlight parentSessionId .full).length ≤ 1
  fanout : ∀ parentSessionId,
    ((store.inFlight parentSessionId .readonlyFanout).map DelegationRow.expectedSubagents).sum ≤
      maxReservedReadonlySlots

variable {history : DelegationHistory} {row : DelegationRow} {store : DelegationStore}
    {request : CreateDelegationRequest}

theorem call_sessions {call : DelegationCall} (keeps : history.KeepsParents call)
    (mem : row ∈ history.store.delegations)
    (present : history.store.hasSession row.parentSessionId) :
    (history.call call).store.hasSession row.parentSessionId := by
  have cancelled : ∀ (store : DelegationStore) (delegation : DelegationRow) (sessionId : String),
      (store.cancelActiveDelegationChildInputs delegation).hasSession sessionId =
        store.hasSession sessionId := by
    intro store delegation sessionId
    show (store.sessions.map _).any _ = store.sessions.any _
    rw [any_map]
    congr 1
    funext session
    rw [Function.comp_apply]
    split <;> rfl
  have performs := history.call_performs call
  generalize history.call call = after at performs
  cases performs with
  | nothing => exact present
  | creates creates =>
    rw [hasSession, (createDelegationIdempotent_admits creates).2]
    exact present
  | moves moves step kept ending =>
    obtain ⟨-, rfl⟩ := moveDelegation_some moves
    obtain same | same := ending
    · rw [same]
      exact present
    · rw [same]
      exact (cancelled _ _ _).trans present
  | settles => exact keeps row mem

def reserves (parentSessionId : String) (kind : DelegationKind) (row : DelegationRow) : Bool :=
  row.parentSessionId == parentSessionId && row.status.isInFlight && row.kind == kind

theorem reserves_before {before after : DelegationRow} (move : AdmissionMove before after)
    (parentSessionId : String) (kind : DelegationKind)
    (counted : reserves parentSessionId kind after) : reserves parentSessionId kind before := by
  simp only [reserves, Bool.and_eq_true] at counted ⊢
  rw [move.move.parentSessionId, move.kind] at counted
  exact ⟨⟨counted.1.1, move.move.move.inFlight counted.1.2⟩, counted.2⟩

theorem inFlight_append (store : DelegationStore) (row : DelegationRow) (parentSessionId : String)
    (kind : DelegationKind) :
    (({ store with delegations := store.delegations ++ [row] } : DelegationStore).inFlight
      parentSessionId kind) = store.inFlight parentSessionId kind ++
        if reserves parentSessionId kind row then [row] else [] := by
  show List.filter _ (store.delegations ++ [row]) = _
  rw [filter_append, filter_cons, filter_nil]
  rfl

theorem length_eq_sum (rows : List DelegationRow) :
    (rows.length : Int) = (rows.map fun _ => (1 : Int)).sum := by
  induction rows with
  | nil => rfl
  | cons =>
    rw [length_cons, map_cons, sum_cons]
    omega

/-- Rows that only move stay within the capacity. -/
theorem WithinCapacity.of_moves {after : DelegationStore} (within : WithinCapacity store)
    {change : DelegationRow → DelegationRow}
    (isMap : after.delegations = store.delegations.map change)
    (moves : ∀ row ∈ store.delegations, AdmissionMove row (change row))
    (parents : ∀ row ∈ store.delegations, after.hasSession row.parentSessionId) :
    WithinCapacity after := by
  have sources : ∀ row ∈ after.delegations, ∃ prior ∈ store.delegations, AdmissionMove prior row := by
    intro row mem
    rw [isMap] at mem
    obtain ⟨prior, inBefore, rfl⟩ := mem_map.mp mem
    exact ⟨prior, inBefore, moves prior inBefore⟩
  have inFlight : ∀ parentSessionId kind, after.inFlight parentSessionId kind =
      (store.delegations.map change).filter (reserves parentSessionId kind) := by
    intro parentSessionId kind
    rw [← isMap]
    rfl
  have leaves : ∀ parentSessionId kind, ∀ row ∈ store.delegations,
      reserves parentSessionId kind (change row) → reserves parentSessionId kind row :=
    fun parentSessionId kind row mem => reserves_before (moves row mem) parentSessionId kind
  constructor
  · intro row mem
    obtain ⟨prior, inBefore, move⟩ := sources row mem
    rw [move.move.parentSessionId]
    exact parents prior inBefore
  · intro row mem
    obtain ⟨prior, inBefore, move⟩ := sources row mem
    rw [move.move.expectedSubagents]
    exact within.positive prior inBefore
  · intro row mem isFull
    obtain ⟨prior, inBefore, move⟩ := sources row mem
    rw [move.move.expectedSubagents]
    exact within.single prior inBefore (move.kind.symm.trans isFull)
  · intro row mem
    obtain ⟨prior, inBefore, move⟩ := sources row mem
    rw [move.move.expectedSubagents]
    exact within.bounded prior inBefore
  · have kept : (store.delegations.map change).map
          (fun row => (row.parentSessionId, row.launchKey)) =
        store.delegations.map fun row => (row.parentSessionId, row.launchKey) := by
      rw [map_map]
      apply map_congr_left
      intro row mem
      have move := moves row mem
      show ((change row).parentSessionId, (change row).launchKey) = _
      rw [move.move.parentSessionId, move.launchKey]
    rw [isMap, kept]
    exact within.keys
  · intro parentSessionId
    have counted : ((after.inFlight parentSessionId .full).map fun _ => (1 : Int)).sum ≤
        ((store.inFlight parentSessionId .full).map fun _ => (1 : Int)).sum := by
      rw [inFlight]
      exact Library.sum_counted_le (fun _ _ => by decide) (fun _ _ => rfl)
        (leaves parentSessionId .full)
    have before := within.full parentSessionId
    rw [← length_eq_sum, ← length_eq_sum] at counted
    omega
  · intro parentSessionId
    have counted : ((after.inFlight parentSessionId .readonlyFanout).map
        DelegationRow.expectedSubagents).sum ≤ ((store.inFlight parentSessionId .readonlyFanout).map
            DelegationRow.expectedSubagents).sum := by
      rw [inFlight]
      exact Library.sum_counted_le (fun row mem => Int.le_of_lt (within.positive row mem))
        (fun row mem => (moves row mem).move.expectedSubagents)
        (leaves parentSessionId .readonlyFanout)
    exact Int.le_trans counted (within.fanout parentSessionId)

theorem WithinCapacity.of_admits {after : DelegationStore} (within : WithinCapacity store)
    (isNew : after.delegations = store.delegations ++ [row]) (admitted : Admitted store row)
    (parents : ∀ other ∈ after.delegations, after.hasSession other.parentSessionId) :
    WithinCapacity after := by
  have members : ∀ other ∈ after.delegations, other ∈ store.delegations ∨ other = row := by
    intro other mem
    rw [isNew] at mem
    exact (mem_append.mp mem).imp_right mem_singleton.mp
  have inFlight : ∀ parentSessionId kind, after.inFlight parentSessionId kind =
      store.inFlight parentSessionId kind ++
        if reserves parentSessionId kind row then [row] else [] := by
    intro parentSessionId kind
    rw [← inFlight_append]
    show List.filter _ after.delegations = List.filter _ (store.delegations ++ [row])
    rw [isNew]
  constructor
  · exact parents
  · intro other mem
    rcases members other mem with before | rfl
    · exact within.positive other before
    · exact admitted.positive
  · intro other mem
    rcases members other mem with before | rfl
    · exact within.single other before
    · exact admitted.single
  · intro other mem
    rcases members other mem with before | rfl
    · exact within.bounded other before
    · exact admitted.bounded
  · rw [isNew, map_append, nodup_append]
    refine ⟨within.keys, nodup_singleton _, ?_⟩
    intro key inBefore other isRow same
    obtain ⟨prior, mem, rfl⟩ := mem_map.mp inBefore
    obtain ⟨sameParent, sameKey⟩ := Prod.mk.inj (same.trans (mem_singleton.mp isRow))
    exact admitted.unused prior mem ⟨sameParent, sameKey⟩
  · intro parentSessionId
    rw [inFlight]
    split
    · rename_i counted
      simp only [reserves, Bool.and_eq_true, beq_iff_eq] at counted
      obtain ⟨⟨rfl, _⟩, isFull⟩ := counted
      rw [admitted.full isFull]
      exact Nat.le_refl 1
    · rw [append_nil]
      exact within.full parentSessionId
  · intro parentSessionId
    rw [inFlight]
    split
    · rename_i counted
      simp only [reserves, Bool.and_eq_true, beq_iff_eq] at counted
      obtain ⟨⟨rfl, _⟩, isFanout⟩ := counted
      rw [map_append, sum_append, map_singleton, sum_singleton]
      exact admitted.fanout isFanout
    · rw [append_nil]
      exact within.fanout parentSessionId

theorem WithinCapacity.call (within : WithinCapacity history.store) {call : DelegationCall}
    (keeps : history.KeepsParents call) : WithinCapacity (history.call call).store := by
  have parents : ∀ row ∈ history.store.delegations,
      (history.call call).store.hasSession row.parentSessionId :=
    fun row mem => call_sessions keeps mem (within.parents row mem)
  rcases history.call_admission call with ⟨isMap, moves⟩ | ⟨isNew, sessions, admitted⟩
  · exact within.of_moves isMap moves parents
  · refine within.of_admits isNew admitted fun row mem => ?_
    rw [isNew] at mem
    rcases Library.mem_concat.mp mem with before | isRow
    · exact parents row before
    · rw [isRow, hasSession, sessions]
      exact admitted.session

theorem within_of_reaches (reaches : admissions.Reaches history) :
    WithinCapacity history.store := by
  refine reaches.invariant (motive := fun history => WithinCapacity history.store) ?_ ?_
  · rintro initial ⟨empty, -⟩
    have none : ∀ {motive : DelegationRow → Prop}, ∀ row ∈ initial.store.delegations, motive row := by
      rw [empty]
      exact forall_mem_nil _
    refine ⟨none, none, none, none, ?_, ?_, ?_⟩
    · rw [empty]
      exact nodup_nil
    · intro parentSessionId
      rw [inFlight, empty]
      exact Nat.zero_le 1
    · intro parentSessionId
      rw [inFlight, empty]
      exact Int.le_of_lt (by decide : (0 : Int) < 8)
  · rintro history call after - within ⟨keeps, rfl⟩
    exact within.call keeps

/-- The text of a launch names its kind and its tasks, so launches of one shape ask for the
same. -/
structure SameShape (request : CreateDelegationRequest) (row : DelegationRow) : Prop where
  launchShape : request.launchShape = row.launchShape
  kind : request.kind = row.kind
  expectedSubagents : request.expectedSubagents = row.expectedSubagents

section

variable (within : WithinCapacity store)
include within

section

variable (mem : row ∈ store.delegations)
include mem

section

variable (parent : request.parentSessionId = row.parentSessionId)
include parent

section

variable (key : request.launchKey = row.launchKey)
include key

/-- The key of a launch finds the one row that has it. -/
theorem WithinCapacity.find_key :
    (store.delegations.find? fun other =>
      other.parentSessionId == request.parentSessionId && other.launchKey == request.launchKey) =
        some row := by
  cases found : store.delegations.find? fun other =>
      other.parentSessionId == request.parentSessionId && other.launchKey == request.launchKey with
  | none =>
    rw [find?_eq_none] at found
    have missed := found row mem
    rw [parent, key, beq_self_eq_true, beq_self_eq_true] at missed
    exact absurd rfl missed
  | some other =>
    have isFound := find?_some found
    simp only [Bool.and_eq_true, beq_iff_eq] at isFound
    have sameKey : (other.parentSessionId, other.launchKey) = (row.parentSessionId, row.launchKey) :=
      Prod.ext (isFound.1.trans parent) (isFound.2.trans key)
    rw [inj_on_of_nodup_map within.keys (mem_of_find?_eq_some found) mem sameKey]

/-- A replay is answered from the row, whatever its status and whatever room is left. -/
theorem WithinCapacity.replay
    (shape : SameShape request row) (drawn : DrawnDelegation) :
    store.createDelegationIdempotent request drawn = .ok (store, row) := by
  have positive : ¬ request.expectedSubagents ≤ 0 := by
    rw [shape.expectedSubagents]
    exact Int.not_le.mpr (within.positive row mem)
  have single : ¬ (request.kind = .full ∧ request.expectedSubagents ≠ 1) := by
    rintro ⟨isFull, other⟩
    apply other
    rw [shape.expectedSubagents]
    exact within.single row mem (shape.kind.symm.trans isFull)
  have bounded : ¬ (request.kind = .readonlyFanout
      ∧ maxReservedReadonlySlots < request.expectedSubagents) := by
    rintro ⟨-, exceeds⟩
    rw [shape.expectedSubagents] at exceeds
    exact Int.not_lt.mpr (within.bounded row mem) exceeds
  have session : store.hasSession request.parentSessionId := by
    rw [parent]
    exact within.parents row mem
  have sameText : (row.launchShape != request.launchShape) = false := by
    rw [shape.launchShape, bne_self_eq_false]
  rw [createDelegationIdempotent, if_neg positive, if_neg single, if_neg bounded,
    session, within.find_key mem parent key]
  simp only [Bool.not_true, sameText]
  rfl

theorem WithinCapacity.conflict
    (other : request.launchShape ≠ row.launchShape) (drawn : DrawnDelegation) :
    ∃ error, store.createDelegationIdempotent request drawn = .error error := by
  have otherText := bne_iff_ne.mpr other.symm
  rw [createDelegationIdempotent]
  split
  · exact ⟨_, rfl⟩
  · split
    · exact ⟨_, rfl⟩
    · split
      · exact ⟨_, rfl⟩
      · split
        · exact ⟨_, rfl⟩
        · rw [within.find_key mem parent key]
          simp only [otherText]
          exact ⟨_, rfl⟩

end

end

end

end

structure SameLaunch (row last : DelegationRow) : Prop where
  id : last.id = row.id
  attemptId : last.attemptId = row.attemptId
  parentSessionId : last.parentSessionId = row.parentSessionId
  launchKey : last.launchKey = row.launchKey
  launchShape : last.launchShape = row.launchShape
  kind : last.kind = row.kind
  expectedSubagents : last.expectedSubagents = row.expectedSubagents

theorem SameLaunch.move {last next : DelegationRow} (same : SameLaunch row last)
    (move : AdmissionMove last next) : SameLaunch row next where
  id := move.move.id.trans same.id
  attemptId := move.move.attemptId.trans same.attemptId
  parentSessionId := move.move.parentSessionId.trans same.parentSessionId
  launchKey := move.launchKey.trans same.launchKey
  launchShape := move.launchShape.trans same.launchShape
  kind := move.kind.trans same.kind
  expectedSubagents := move.move.expectedSubagents.trans same.expectedSubagents

theorem row_leads {later : DelegationHistory} (reaches : admissions.Reaches history)
    (leads : admissions.Leads history later) (mem : row ∈ history.store.delegations) :
    ∃ last ∈ later.store.delegations, SameLaunch row last := by
  refine leads.relates
    (motive := fun later => ∃ last ∈ later.store.delegations, SameLaunch row last) reaches
    ⟨row, mem, rfl, rfl, rfl, rfl, rfl, rfl, rfl⟩ ?_
  rintro middle call after - ⟨prior, inMiddle, same⟩ ⟨-, rfl⟩
  rcases middle.call_admission call with ⟨isMap, moves⟩ | ⟨isNew, -, -⟩
  · refine ⟨_, ?_, same.move (moves prior inMiddle)⟩
    rw [isMap]
    exact mem_map_of_mem inMiddle
  · refine ⟨prior, ?_, same⟩
    rw [isNew]
    exact mem_append_left _ inMiddle

/-- In every history a parent has room for what is in flight under it and each of its
launches has one row, and to the end of the run a launch that is asked for again gets its
row as it was drawn, or nothing. -/
theorem delegation_admission {history : DelegationHistory} (reaches : admissions.Reaches history) :
    (∀ parentSessionId,
      (history.store.inFlight parentSessionId .full).length ≤ 1 ∧
        ((history.store.inFlight parentSessionId .readonlyFanout).map
          DelegationRow.expectedSubagents).sum ≤ 8) ∧
    (history.store.delegations.map fun row => (row.parentSessionId, row.launchKey)).Nodup ∧
    ∀ later, admissions.Leads history later → ∀ row ∈ history.store.delegations,
      ∀ request : CreateDelegationRequest, request.parentSessionId = row.parentSessionId →
        request.launchKey = row.launchKey → ∀ drawn,
          (SameShape request row → ∃ last ∈ later.store.delegations,
            last.id = row.id ∧ last.attemptId = row.attemptId ∧
              last.expectedSubagents = row.expectedSubagents ∧
              later.store.createDelegationIdempotent request drawn = .ok (later.store, last)) ∧
          (request.launchShape ≠ row.launchShape → later.call (.create request drawn) = later) := by
  have within := within_of_reaches reaches
  refine ⟨fun parentSessionId => ⟨within.full parentSessionId, within.fanout parentSessionId⟩,
    within.keys, ?_⟩
  intro later leads row mem request parent key drawn
  have laterWithin := within_of_reaches (leads.reaches reaches)
  obtain ⟨last, isRow, launched⟩ := row_leads reaches leads mem
  have lastParent := parent.trans launched.parentSessionId.symm
  have lastKey := key.trans launched.launchKey.symm
  refine ⟨fun same => ?_, fun other => ?_⟩
  · refine ⟨last, isRow, launched.id, launched.attemptId, launched.expectedSubagents, ?_⟩
    exact laterWithin.replay isRow lastParent lastKey
      ⟨same.launchShape.trans launched.launchShape.symm, same.kind.trans launched.kind.symm,
        same.expectedSubagents.trans launched.expectedSubagents.symm⟩ drawn
  · obtain ⟨_, refused⟩ := laterWithin.conflict isRow lastParent lastKey
      (fun same => other (same.trans launched.launchShape)) drawn
    rw [DelegationHistory.call, refused]

/-- A full delegation that was cancelled is still the answer to its launch, while the next
one is in flight. -/
theorem delegation_admission_replayed : ∃ history : DelegationHistory,
    history.store.delegations.map (fun row => (row.id, row.status)) =
      [("delegation_1", .cancelled), ("delegation_2", .running)] ∧
    ∃ row ∈ history.store.delegations, row.id = "delegation_1" ∧
      ∀ later, admissions.Leads history later → ∀ drawn, ∃ last ∈ later.store.delegations,
        last.attemptId = row.attemptId ∧
          later.store.createDelegationIdempotent
            { parentSessionId := "parent"
              launchKey := "launch"
              launchShape := "shape"
              kind := .full
              workflow := none
              label := none
              expectedSubagents := 1 } drawn = .ok (later.store, last) := by
  let start : DelegationHistory :=
    { store := { delegations := [], sessions := [idleParent] }, winners := [] }
  let first := start.call (.create launchOne { id := "delegation_1", attemptId := "attempt_1" })
  let begun := first.call (.beginTeardown "parent" "delegation_1" "attempt_1" .cancelled)
  let torn := begun.call (.finishTeardown "delegation_1" "attempt_1" .cancelled)
  let second := torn.call
    (.create { launchOne with launchKey := "next" } { id := "delegation_2", attemptId := "attempt_2" })
  have initially : admissions.Reaches start := .start ⟨rfl, rfl⟩
  have firstReached : admissions.Reaches first := initially.call (.create _ _) trivial
  have begunReached : admissions.Reaches begun := firstReached.call (.beginTeardown _ _ _ _) trivial
  have tornReached : admissions.Reaches torn := begunReached.call (.finishTeardown _ _ _) trivial
  have reaches : admissions.Reaches second := tornReached.call (.create _ _) trivial
  have rows : second.store.delegations.map (fun row => (row.id, row.status)) =
      [("delegation_1", .cancelled), ("delegation_2", .running)] := by
    decide +kernel
  have launched : ∃ row ∈ second.store.delegations, row.id = "delegation_1" ∧
      row.parentSessionId = "parent" ∧ row.launchKey = "launch" ∧ row.launchShape = "shape" ∧
        row.kind = .full ∧ row.expectedSubagents = 1 := by
    decide +kernel
  obtain ⟨row, mem, id, isParent, key, shape, kind, expected⟩ := launched
  refine ⟨second, rows, row, mem, id, fun later leads drawn => ?_⟩
  obtain ⟨last, isRow, -, attemptId, -, replayed⟩ :=
    ((delegation_admission reaches).2.2 later leads row mem launchOne isParent.symm key.symm
      drawn).1 ⟨shape.symm, kind.symm, expected.symm⟩
  exact ⟨last, isRow, attemptId, replayed⟩

end DelegationHistory

end PiRelay.Store
