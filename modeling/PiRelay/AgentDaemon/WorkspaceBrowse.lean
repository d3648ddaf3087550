import PiRelay.AgentRuntime.BrowseWatchHub
import PiRelay.Library.Machine

/-! Calls of `workspace.watch`. A call records the interest of its session, then takes the
union of the interests recorded for the workspace, and sends it to the runtime, which handles
commands in any order. -/
namespace PiRelay.Runtime

open AgentRuntime Library List

structure BrowseWatchInterest where
  workspaceId : String
  directories : SortedSet String
  files : SortedSet String

/-- Where a call stands. A union is numbered in the order in which unions are taken. -/
inductive WatchPhase where
  | started
  | recorded
  | inFlight (number : Nat) (union : BrowseInterest)
  | applied (number : Nat) (union : BrowseInterest) (result : Except String Unit)
  | returned (number : Nat) (union : BrowseInterest) (result : Except String Unit)

structure WatchCall where
  sessionId : String
  interest : BrowseInterest
  phase : WatchPhase

structure WatchState where
  /-- The workspace in the configuration of a session. -/
  workspaceId : String → String
  browseWatches : List (String × BrowseWatchInterest)
  unions : Nat
  calls : List WatchCall
  hub : BrowseWatchHub

inductive WatchAction where
  | call (sessionId : String) (directories files : List String)
  | record (id : Nat)
  | union (id : Nat)
  | apply (id : Nat) (watching : Except String Unit)
  | returns (id : Nat)

namespace WatchState

variable (state : WatchState)

def recorded (workspaceId : String) : List BrowseWatchInterest :=
  (state.browseWatches.map Prod.snd).filter (·.workspaceId == workspaceId)

def unionInterestForWorkspace (workspaceId : String) : BrowseInterest where
  directories := .collect ((state.recorded workspaceId).flatMap (·.directories.keys))
  files := .collect ((state.recorded workspaceId).flatMap (·.files.keys))

def recordInterest (sessionId : String) (interest : BrowseInterest) :
    List (String × BrowseWatchInterest) :=
  let others := state.browseWatches.filter (·.1 != sessionId)
  if interest.isEmpty then others
  else others ++ [(sessionId,
    ⟨state.workspaceId sessionId, interest.directories, interest.files⟩)]

def workspaceOf (call : WatchCall) : String := state.workspaceId call.sessionId

def setPhase (id : Nat) (call : WatchCall) (phase : WatchPhase) : WatchState :=
  { state with calls := state.calls.set id { call with phase } }

def step : WatchAction → Option WatchState
  | .call sessionId directories files =>
    let interest := ⟨.collect directories, .collect files⟩
    some { state with calls := state.calls ++ [⟨sessionId, interest, .started⟩] }
  | .record id =>
    match state.calls[id]? with
    | some ⟨sessionId, interest, .started⟩ =>
      some
        { state.setPhase id ⟨sessionId, interest, .started⟩ .recorded with
          browseWatches := state.recordInterest sessionId interest }
    | _ => none
  | .union id =>
    match state.calls[id]? with
    | some ⟨sessionId, interest, .recorded⟩ =>
      let union := state.unionInterestForWorkspace (state.workspaceId sessionId)
      some
        { state.setPhase id ⟨sessionId, interest, .recorded⟩ (.inFlight state.unions union) with
          unions := state.unions + 1 }
    | _ => none
  | .apply id watching =>
    match state.calls[id]? with
    | some ⟨sessionId, interest, .inFlight number union⟩ =>
      let applied := setInterest state.hub (state.workspaceId sessionId)
        union.directories.keys union.files.keys watching
      let phase := .applied number union applied.2
      some
        { state.setPhase id ⟨sessionId, interest, .inFlight number union⟩ phase with
          hub := applied.1 }
    | _ => none
  | .returns id =>
    match state.calls[id]? with
    | some ⟨sessionId, interest, .applied number union result⟩ =>
      some (state.setPhase id ⟨sessionId, interest, .applied number union result⟩
        (.returned number union result))
    | _ => none

end WatchState

open WatchState

/-- At first nothing is recorded and nothing is watched. -/
def watchMachine : Machine WatchState WatchAction :=
  .ofSteps (fun state => state.browseWatches = [] ∧ state.calls = [] ∧ ∀ id, state.hub id = none)
    WatchState.step

namespace WatchPhase

def taken : WatchPhase → Option (Nat × BrowseInterest)
  | .inFlight number union => some (number, union)
  | .applied number union _ => some (number, union)
  | .returned number union _ => some (number, union)
  | _ => none

/-- The union that a call has had the runtime put down, with its number and the result. -/
def putDown : WatchPhase → Option (Nat × BrowseInterest × Except String Unit)
  | .applied number union result => some (number, union, result)
  | .returned number union result => some (number, union, result)
  | _ => none

theorem taken_of_putDown {phase : WatchPhase} {number : Nat} {union : BrowseInterest}
    {result : Except String Unit} (isDown : phase.putDown = some (number, union, result)) :
    phase.taken = some (number, union) := by
  cases phase with
  | applied | returned =>
    cases isDown
    rfl
  | _ => cases isDown

end WatchPhase

namespace WatchState

/-- Calls name paths in their normal form, and commands take effect in the order in which
their unions were taken. -/
def Admits (state : WatchState) : WatchAction → Prop
  | .call _ directories files => ∀ path ∈ directories ++ files, NormalPath path
  | .apply id _ => ∀ call ∈ state.calls[id]?, ∀ taken ∈ call.phase.taken,
      ∀ other ∈ state.calls, state.workspaceOf other = state.workspaceOf call →
        ∀ down ∈ other.phase.putDown, down.1 ≤ taken.1
  | _ => True

instance (state : WatchState) : DecidablePred state.Admits
  | .call _ directories files =>
    inferInstanceAs (Decidable (∀ path ∈ directories ++ files, NormalPath path))
  | .apply id _ => inferInstanceAs (Decidable (∀ call ∈ state.calls[id]?,
      ∀ taken ∈ call.phase.taken, ∀ other ∈ state.calls, _ → ∀ down ∈ other.phase.putDown, _ ≤ _))
  | .record _ | .union _ | .returns _ => .isTrue trivial

/-- All calls have returned without an error. -/
def Settled (state : WatchState) : Prop :=
  ∀ call ∈ state.calls, ∃ number union, call.phase = .returned number union (.ok ())

end WatchState

/-- A call is about to take the union, or the last union taken is still right. -/
def Current (state : WatchState) (workspaceId : String) : Prop :=
  (∃ call ∈ state.calls, state.workspaceOf call = workspaceId ∧ call.phase = .recorded) ∨
  (state.recorded workspaceId = [] ∧ ∀ call ∈ state.calls,
    state.workspaceOf call = workspaceId → call.phase.taken = none) ∨
  ∃ call ∈ state.calls, state.workspaceOf call = workspaceId ∧
    ∃ number, call.phase.taken = some (number, state.unionInterestForWorkspace workspaceId) ∧
      ∀ other ∈ state.calls, state.workspaceOf other = workspaceId →
        ∀ taken ∈ other.phase.taken, taken.1 ≤ number

/-- The recorded interests are those of sessions in their workspaces, and no two calls have
the number of a union. -/
structure WatchKept (state : WatchState) : Prop where
  own : ∀ entry ∈ state.browseWatches, entry.2.workspaceId = state.workspaceId entry.1
  earlier : ∀ call ∈ state.calls, ∀ taken ∈ call.phase.taken, taken.1 < state.unions
  unique : ∀ one ∈ state.calls, ∀ other ∈ state.calls, ∀ taken ∈ one.phase.taken,
    ∀ otherTaken ∈ other.phase.taken, taken.1 = otherTaken.1 → taken = otherTaken
  current : ∀ workspaceId, Current state workspaceId

variable {state after : WatchState} {id : Nat}

variable {phase : WatchPhase} {workspaceId : String}

theorem mem_setPhase {call other : WatchCall} (mem : other ∈ (state.setPhase id call phase).calls) :
    other ∈ state.calls ∨ other = { call with phase } :=
  mem_or_eq_of_mem_set mem

theorem WatchKept.rephase (kept : WatchKept state) {call : WatchCall} (hub : BrowseWatchHub)
    (found : state.calls[id]? = some call) (unrecorded : call.phase ≠ .recorded)
    (same : phase.taken = call.phase.taken) :
    WatchKept { state.setPhase id call phase with hub } := by
  have inCalls := mem_of_getElem? found
  -- Every call was there with the same union.
  have was : ∀ other ∈ (state.setPhase id call phase).calls, ∃ earlier ∈ state.calls,
      earlier.sessionId = other.sessionId ∧ earlier.phase.taken = other.phase.taken := by
    intro other mem
    rcases mem_setPhase mem with old | rfl
    · exact ⟨other, old, rfl, rfl⟩
    · exact ⟨call, inCalls, rfl, same.symm⟩
  refine ⟨kept.own, ?_, ?_, ?_⟩
  · intro other mem taken isTaken
    obtain ⟨earlier, wasMember, -, sameTaken⟩ := was other mem
    exact kept.earlier earlier wasMember taken (sameTaken ▸ isTaken)
  · intro one hOne other hOther taken isTaken otherTaken isOtherTaken
    obtain ⟨first, hFirst, -, sameFirst⟩ := was one hOne
    obtain ⟨second, hSecond, -, sameSecond⟩ := was other hOther
    exact kept.unique first hFirst second hSecond taken (sameFirst ▸ isTaken) otherTaken
      (sameSecond ▸ isOtherTaken)
  · intro workspaceId
    rcases kept.current workspaceId with ⟨waiting, mem, own, isRecorded⟩ | ⟨none, untaken⟩ |
      ⟨last, mem, own, number, isTaken, greatest⟩
    · rcases mem_set_of_mem found mem with stays | rfl
      · exact .inl ⟨waiting, stays, own, isRecorded⟩
      · exact absurd isRecorded unrecorded
    · refine .inr (.inl ⟨none, fun other hOther ownOther => ?_⟩)
      obtain ⟨earlier, wasMember, sameSession, sameTaken⟩ := was other hOther
      rw [← sameTaken]
      exact untaken earlier wasMember (by rw [workspaceOf, sameSession]; exact ownOther)
    · have greatestAfter : ∀ other ∈ (state.setPhase id call phase).calls,
          state.workspaceOf other = workspaceId → ∀ taken ∈ other.phase.taken,
            taken.1 ≤ number := by
        intro other hOther ownOther taken isOtherTaken
        obtain ⟨earlier, wasMember, sameSession, sameTaken⟩ := was other hOther
        exact greatest earlier wasMember (by rw [workspaceOf, sameSession]; exact ownOther) taken
          (sameTaken ▸ isOtherTaken)
      rcases mem_set_of_mem found mem with stays | rfl
      · exact .inr (.inr ⟨last, stays, own, number, isTaken, greatestAfter⟩)
      · exact .inr (.inr ⟨_, mem_set_self found, own, number, same.trans isTaken, greatestAfter⟩)

theorem Current.other (current : Current state workspaceId) {call : WatchCall}
    (found : state.calls[id]? = some call) (different : state.workspaceOf call ≠ workspaceId)
    (workspaces : after.workspaceId = state.workspaceId)
    (calls : after.calls = (state.setPhase id call phase).calls)
    (recorded : after.recorded workspaceId = state.recorded workspaceId) :
    Current after workspaceId := by
  have sameWorkspace : ∀ other, after.workspaceOf other = state.workspaceOf other := by
    intro other
    rw [workspaceOf, workspaceOf, workspaces]
  have stays : ∀ other ∈ state.calls, state.workspaceOf other = workspaceId →
      other ∈ after.calls := by
    intro other mem own
    rw [calls]
    rcases mem_set_of_mem found mem with stays | rfl
    · exact stays
    · exact absurd own different
  have was : ∀ other ∈ after.calls, after.workspaceOf other = workspaceId →
      other ∈ state.calls ∧ state.workspaceOf other = workspaceId := by
    intro other mem own
    rw [sameWorkspace] at own
    rw [calls] at mem
    rcases mem_setPhase mem with old | rfl
    · exact ⟨old, own⟩
    · exact absurd own different
  have union : after.unionInterestForWorkspace workspaceId
      = state.unionInterestForWorkspace workspaceId := by
    rw [unionInterestForWorkspace, unionInterestForWorkspace, recorded]
  rcases current with ⟨waiting, mem, own, isRecorded⟩ | ⟨none, untaken⟩ |
    ⟨last, mem, own, number, isTaken, greatest⟩
  · exact .inl ⟨waiting, stays waiting mem own, (sameWorkspace waiting).trans own, isRecorded⟩
  · refine .inr (.inl ⟨recorded.trans none, fun other hOther ownOther => ?_⟩)
    obtain ⟨wasMember, wasOwn⟩ := was other hOther ownOther
    exact untaken other wasMember wasOwn
  · refine .inr (.inr ⟨last, stays last mem own, (sameWorkspace last).trans own, number, ?_, ?_⟩)
    · rw [union]
      exact isTaken
    · intro other hOther ownOther
      obtain ⟨wasMember, wasOwn⟩ := was other hOther ownOther
      exact greatest other wasMember wasOwn

theorem WatchKept.call (kept : WatchKept state) (sessionId : String) (interest : BrowseInterest) :
    WatchKept { state with calls := state.calls ++ [⟨sessionId, interest, .started⟩] } := by
  have was : ∀ {call taken}, call ∈ state.calls ++ [⟨sessionId, interest, .started⟩] →
      taken ∈ call.phase.taken → call ∈ state.calls := by
    intro call taken mem isTaken
    rcases mem_concat.mp mem with old | rfl
    · exact old
    · cases isTaken
  refine ⟨kept.own, ?_, ?_, ?_⟩
  · exact fun call mem taken isTaken => kept.earlier call (was mem isTaken) taken isTaken
  · exact fun one hOne other hOther taken isTaken otherTaken isOtherTaken =>
      kept.unique one (was hOne isTaken) other (was hOther isOtherTaken) taken isTaken otherTaken
        isOtherTaken
  · intro workspaceId
    rcases kept.current workspaceId with ⟨waiting, mem, own, isRecorded⟩ | ⟨none, untaken⟩ |
      ⟨last, mem, own, number, isTaken, greatest⟩
    · exact .inl ⟨waiting, mem_append_left _ mem, own, isRecorded⟩
    · refine .inr (.inl ⟨none, fun call mem own => ?_⟩)
      rcases mem_concat.mp mem with old | rfl
      · exact untaken call old own
      · rfl
    · exact .inr (.inr ⟨last, mem_append_left _ mem, own, number, isTaken,
        fun other hOther ownOther taken isOther =>
          greatest other (was hOther isOther) ownOther taken isOther⟩)

theorem recorded_recordInterest {sessionId : String} (interest : BrowseInterest)
    (kept : WatchKept state) (different : state.workspaceId sessionId ≠ workspaceId) :
    WatchState.recorded { state with browseWatches := state.recordInterest sessionId interest }
      workspaceId = state.recorded workspaceId := by
  have others : ((state.browseWatches.filter (·.1 != sessionId)).map Prod.snd).filter
      (·.workspaceId == workspaceId) = state.recorded workspaceId := by
    rw [recorded, List.filter_map, List.filter_map, filter_filter]
    congr 1
    apply filter_congr
    intro entry mem
    rcases eq_or_ne entry.1 sessionId with same | otherSession
    · have own := kept.own entry mem
      simp [same, own, different]
    · simp [otherSession]
  rw [recorded, recordInterest]
  split
  · exact others
  · rw [map_append, filter_append, others]
    simp [different]

section

variable (kept : WatchKept state)
include kept

theorem WatchKept.record {call : WatchCall} (found : state.calls[id]? = some call) :
    WatchKept { state.setPhase id call .recorded with
      browseWatches := state.recordInterest call.sessionId call.interest } := by
  have was : ∀ {other taken}, other ∈ (state.setPhase id call .recorded).calls →
      taken ∈ other.phase.taken → other ∈ state.calls := by
    intro other taken mem isTaken
    rcases mem_setPhase mem with old | rfl
    · exact old
    · cases isTaken
  refine ⟨?_, ?_, ?_, ?_⟩
  · intro entry mem
    rw [recordInterest] at mem
    split at mem
    · exact kept.own entry (mem_of_mem_filter mem)
    · rcases mem_concat.mp mem with old | rfl
      · exact kept.own entry (mem_of_mem_filter old)
      · rfl
  · exact fun other mem taken isTaken => kept.earlier other (was mem isTaken) taken isTaken
  · exact fun one hOne other hOther taken isTaken otherTaken isOtherTaken =>
      kept.unique one (was hOne isTaken) other (was hOther isOtherTaken) taken isTaken otherTaken
        isOtherTaken
  · intro workspaceId
    rcases eq_or_ne (state.workspaceOf call) workspaceId with rfl | different
    · exact .inl ⟨_, mem_set_self found, rfl, rfl⟩
    · have sameRecorded := recorded_recordInterest call.interest kept different
      exact (kept.current workspaceId).other found different rfl rfl sameRecorded

theorem WatchKept.union {call : WatchCall} (found : state.calls[id]? = some call) :
    WatchKept { state.setPhase id call (.inFlight state.unions
        (state.unionInterestForWorkspace (state.workspaceOf call))) with
      unions := state.unions + 1 } := by
  -- The number is greater than every one before.
  have cases : ∀ {other taken}, other ∈ (state.setPhase id call (.inFlight state.unions
      (state.unionInterestForWorkspace (state.workspaceOf call)))).calls →
      taken ∈ other.phase.taken → other ∈ state.calls ∧ taken.1 < state.unions ∨
        taken = (state.unions, state.unionInterestForWorkspace (state.workspaceOf call)) := by
    intro other taken mem isTaken
    rcases mem_setPhase mem with old | rfl
    · exact .inl ⟨old, kept.earlier other old taken isTaken⟩
    · exact .inr (Option.some.inj isTaken).symm
  refine ⟨kept.own, ?_, ?_, ?_⟩
  · intro other mem taken isTaken
    rcases cases mem isTaken with ⟨-, less⟩ | rfl
    · exact less.trans (Nat.lt_succ_self _)
    · exact Nat.lt_succ_self _
  · intro one hOne other hOther taken isTaken otherTaken isOtherTaken same
    rcases cases hOne isTaken with ⟨wasOne, less⟩ | rfl
    · rcases cases hOther isOtherTaken with ⟨wasOther, -⟩ | rfl
      · exact kept.unique one wasOne other wasOther taken isTaken otherTaken isOtherTaken same
      · exact absurd same less.ne
    · rcases cases hOther isOtherTaken with ⟨-, less⟩ | rfl
      · exact absurd same.symm less.ne
      · rfl
  · intro workspaceId
    rcases eq_or_ne (state.workspaceOf call) workspaceId with rfl | different
    · refine .inr (.inr ⟨_, mem_set_self found, rfl, state.unions, rfl, ?_⟩)
      intro other mem _ taken isTaken
      rcases cases mem isTaken with ⟨-, less⟩ | rfl
      · exact less.le
      · exact le_rfl
    · exact (kept.current workspaceId).other found different rfl rfl rfl

theorem WatchKept.step {action : WatchAction} (isStep : state.step action = some after) :
    WatchKept after := by
  cases action with
  | call sessionId =>
    cases isStep
    exact kept.call sessionId _
  | record =>
    rw [WatchState.step] at isStep
    split at isStep
    · rename_i sessionId interest found
      cases isStep
      exact kept.record found
    · cases isStep
  | union =>
    rw [WatchState.step] at isStep
    split at isStep
    · rename_i sessionId interest found
      cases isStep
      exact kept.union found
    · cases isStep
  | apply =>
    rw [WatchState.step] at isStep
    split at isStep
    · rename_i sessionId interest number union found
      cases isStep
      exact kept.rephase _ found (by simp) rfl
    · cases isStep
  | returns =>
    rw [WatchState.step] at isStep
    split at isStep
    · rename_i sessionId interest number union result found
      cases isStep
      exact kept.rephase state.hub found (by simp) rfl
    · cases isStep

end

theorem watchKept_of_reaches (reaches : watchMachine.Reaches state) : WatchKept state := by
  apply reaches.invariant
  · rintro state ⟨noWatches, noCalls, -⟩
    refine ⟨by simp [noWatches], by simp [noCalls], by simp [noCalls], fun workspaceId => ?_⟩
    exact .inr (.inl ⟨by simp [recorded, noWatches], by simp [noCalls]⟩)
  · exact fun state action after _ kept isStep => kept.step isStep

/-- All paths of an interest are in normal form. -/
def NormalInterest (interest : BrowseInterest) : Prop :=
  ∀ path ∈ interest.directories.keys ++ interest.files.keys, NormalPath path

/-- A call of the workspace has had the runtime put down this union. -/
def PutDown (state : WatchState) (workspaceId : String)
    (down : Nat × BrowseInterest × Except String Unit) : Prop :=
  ∃ call ∈ state.calls, state.workspaceOf call = workspaceId ∧ call.phase.putDown = some down

/-- What is installed is the last union that was put down, by its number. -/
def Latest (state : WatchState) (workspaceId : String) : Prop :=
  (state.hub workspaceId = none ∧ ∀ down, ¬ PutDown state workspaceId down) ∨
  ∃ last, PutDown state workspaceId last ∧
    (last.2.2 = .ok () → state.hub workspaceId = last.2.1.installed) ∧
    ∀ down, PutDown state workspaceId down → down.1 ≤ last.1

structure WatchOrdered (state : WatchState) : Prop where
  calls : ∀ call ∈ state.calls, NormalInterest call.interest
  watches : ∀ entry ∈ state.browseWatches,
    NormalInterest ⟨entry.2.directories, entry.2.files⟩
  unions : ∀ call ∈ state.calls, ∀ taken ∈ call.phase.taken, NormalInterest taken.2
  latest : ∀ workspaceId, Latest state workspaceId

theorem normalInterest_collect {directories files : List String}
    (normal : ∀ path ∈ directories ++ files, NormalPath path) :
    NormalInterest ⟨.collect directories, .collect files⟩ := by
  intro path mem
  apply normal path
  simpa using mem

theorem WatchOrdered.normal_union (ordered : WatchOrdered state) (workspaceId : String) :
    NormalInterest (state.unionInterestForWorkspace workspaceId) := by
  apply normalInterest_collect
  intro path mem
  have fromEntry : ∃ entry ∈ state.browseWatches,
      path ∈ entry.2.directories.keys ++ entry.2.files.keys := by
    rcases mem_append.mp mem with inDirectories | inFiles
    · obtain ⟨interest, isRecorded, isPath⟩ := mem_flatMap.mp inDirectories
      obtain ⟨entry, isEntry, rfl⟩ := mem_map.mp (mem_of_mem_filter isRecorded)
      exact ⟨entry, isEntry, mem_append_left _ isPath⟩
    · obtain ⟨interest, isRecorded, isPath⟩ := mem_flatMap.mp inFiles
      obtain ⟨entry, isEntry, rfl⟩ := mem_map.mp (mem_of_mem_filter isRecorded)
      exact ⟨entry, isEntry, mem_append_right _ isPath⟩
  obtain ⟨entry, isEntry, isPath⟩ := fromEntry
  exact ordered.watches entry isEntry path isPath

theorem putDown_setPhase (workspaceId : String) {call : WatchCall}
    (down : Nat × BrowseInterest × Except String Unit) (found : state.calls[id]? = some call)
    (keeps : ∀ down, call.phase.putDown = some down → phase.putDown = some down) :
    PutDown (state.setPhase id call phase) workspaceId down ↔
      PutDown state workspaceId down ∨
        state.workspaceOf call = workspaceId ∧ phase.putDown = some down := by
  constructor
  · rintro ⟨other, mem, own, isDown⟩
    rcases mem_setPhase mem with old | rfl
    · exact .inl ⟨other, old, own, isDown⟩
    · exact .inr ⟨own, isDown⟩
  · rintro (⟨other, mem, own, isDown⟩ | ⟨own, isDown⟩)
    · rcases mem_set_of_mem found mem with stays | rfl
      · exact ⟨other, stays, own, isDown⟩
      · exact ⟨_, mem_set_self found, own, keeps down isDown⟩
    · exact ⟨_, mem_set_self found, own, isDown⟩

theorem Latest.same (latest : Latest state workspaceId)
    (hub : after.hub workspaceId = state.hub workspaceId)
    (putDown : ∀ down, PutDown after workspaceId down ↔ PutDown state workspaceId down) :
    Latest after workspaceId := by
  rcases latest with ⟨uninstalled, noneDown⟩ | ⟨last, isDown, installs, greatest⟩
  · exact .inl ⟨hub.trans uninstalled, fun down => (not_congr (putDown down)).mpr (noneDown down)⟩
  · exact .inr ⟨last, (putDown last).mpr isDown, fun isOk => hub.trans (installs isOk),
      fun down isAfter => greatest down ((putDown down).mp isAfter)⟩

section

variable (ordered : WatchOrdered state)
include ordered

theorem WatchOrdered.latest_setPhase {call : WatchCall} (found : state.calls[id]? = some call)
    (same : phase.putDown = call.phase.putDown) (workspaceId : String) :
    Latest (state.setPhase id call phase) workspaceId := by
  apply (ordered.latest workspaceId).same
  · rfl
  intro down
  rw [putDown_setPhase workspaceId down found (fun _ isDown => same.trans isDown)]
  constructor
  · rintro (isDown | ⟨own, isDown⟩)
    · exact isDown
    · exact ⟨call, mem_of_getElem? found, own, same.symm.trans isDown⟩
  · exact Or.inl

theorem WatchOrdered.unions_setPhase {call : WatchCall}
    (normal : ∀ taken ∈ phase.taken, NormalInterest taken.2) :
    ∀ other ∈ (state.setPhase id call phase).calls, ∀ taken ∈ other.phase.taken,
      NormalInterest taken.2 := by
  intro other mem taken isTaken
  rcases mem_setPhase mem with old | rfl
  · exact ordered.unions other old taken isTaken
  · exact normal taken isTaken

theorem WatchOrdered.calls_setPhase {call : WatchCall} (found : state.calls[id]? = some call) :
    ∀ other ∈ (state.setPhase id call phase).calls, NormalInterest other.interest := by
  intro other mem
  rcases mem_setPhase mem with old | rfl
  · exact ordered.calls other old
  · exact ordered.calls call (mem_of_getElem? found)

theorem WatchOrdered.call (sessionId : String) {interest : BrowseInterest}
    (normal : NormalInterest interest) :
    WatchOrdered { state with calls := state.calls ++ [⟨sessionId, interest, .started⟩] } := by
  refine ⟨?_, ordered.watches, ?_, ?_⟩
  · intro call mem
    rcases mem_concat.mp mem with old | rfl
    · exact ordered.calls call old
    · exact normal
  · intro call mem taken isTaken
    rcases mem_concat.mp mem with old | rfl
    · exact ordered.unions call old taken isTaken
    · cases isTaken
  · intro workspaceId
    apply (ordered.latest workspaceId).same
    · rfl
    intro down
    constructor
    · rintro ⟨call, mem, own, isDown⟩
      rcases mem_concat.mp mem with old | rfl
      · exact ⟨call, old, own, isDown⟩
      · cases isDown
    · rintro ⟨call, mem, own, isDown⟩
      exact ⟨call, mem_append_left _ mem, own, isDown⟩

theorem WatchOrdered.record {call : WatchCall} (found : state.calls[id]? = some call)
    (waits : call.phase = .started) :
    WatchOrdered { state.setPhase id call .recorded with
      browseWatches := state.recordInterest call.sessionId call.interest } := by
  refine ⟨ordered.calls_setPhase found, ?_, ?_, ?_⟩
  · intro entry mem
    rw [recordInterest] at mem
    split at mem
    · exact ordered.watches entry (mem_of_mem_filter mem)
    · rcases mem_concat.mp mem with old | rfl
      · exact ordered.watches entry (mem_of_mem_filter old)
      · exact ordered.calls call (mem_of_getElem? found)
  · exact ordered.unions_setPhase (by simp [WatchPhase.taken])
  · have same : WatchPhase.recorded.putDown = call.phase.putDown := by rw [waits]; rfl
    exact ordered.latest_setPhase found same

theorem WatchOrdered.union {call : WatchCall} (found : state.calls[id]? = some call)
    (waits : call.phase = .recorded) :
    WatchOrdered { state.setPhase id call (.inFlight state.unions
        (state.unionInterestForWorkspace (state.workspaceOf call))) with
      unions := state.unions + 1 } := by
  refine ⟨ordered.calls_setPhase found, ordered.watches, ?_, ?_⟩
  · apply ordered.unions_setPhase
    intro taken isTaken
    cases isTaken
    exact ordered.normal_union _
  · intro workspaceId
    exact ordered.latest_setPhase found (by rw [waits]; rfl) workspaceId

theorem WatchOrdered.returns {call : WatchCall} (found : state.calls[id]? = some call)
    (taken : phase.taken = call.phase.taken) (putDown : phase.putDown = call.phase.putDown) :
    WatchOrdered (state.setPhase id call phase) := by
  refine ⟨ordered.calls_setPhase found, ordered.watches, ?_, ordered.latest_setPhase found putDown⟩
  apply ordered.unions_setPhase
  rw [taken]
  exact ordered.unions call (mem_of_getElem? found)

/-- An answer that comes in order leaves the last union in force. -/
theorem WatchOrdered.apply {sessionId : String} {interest union : BrowseInterest} {number : Nat}
    (found : state.calls[id]? = some ⟨sessionId, interest, .inFlight number union⟩)
    (watching : Except String Unit)
    (inOrder : ∀ down, PutDown state (state.workspaceId sessionId) down → down.1 ≤ number) :
    WatchOrdered
      { state.setPhase id ⟨sessionId, interest, .inFlight number union⟩
          (.applied number union (setInterest state.hub (state.workspaceId sessionId)
            union.directories.keys union.files.keys watching).2) with
        hub := (setInterest state.hub (state.workspaceId sessionId)
          union.directories.keys union.files.keys watching).1 } := by
  have normal := ordered.unions _ (mem_of_getElem? found) (number, union) rfl
  refine ⟨ordered.calls_setPhase found, ordered.watches, ?_, ?_⟩
  · apply ordered.unions_setPhase
    intro taken isTaken
    cases isTaken
    exact normal
  · intro workspaceId
    let phase := WatchPhase.applied number union (setInterest state.hub
      (state.workspaceId sessionId) union.directories.keys union.files.keys watching).2
    have putDown : ∀ down, PutDown (state.setPhase id _ phase) workspaceId down ↔ _ := fun down =>
      putDown_setPhase workspaceId down found (by simp [WatchPhase.putDown])
    rcases eq_or_ne workspaceId (state.workspaceId sessionId) with rfl | different
    · refine .inr ⟨(number, union, _), (putDown _).mpr (.inr ⟨rfl, rfl⟩), ?_, ?_⟩
      · intro isOk
        obtain ⟨_, isNormalized, installed⟩ := setInterest_ok isOk
        rw [normalizeInterest_of_normal normal isNormalized] at installed
        exact installed
      · intro down isDown
        rcases (putDown down).mp isDown with before | ⟨-, isThis⟩
        · exact inOrder down before
        · cases isThis
          exact le_rfl
    · apply (ordered.latest workspaceId).same (setInterest_other different)
      intro down
      refine (putDown down).trans ⟨?_, Or.inl⟩
      rintro (before | ⟨own, -⟩)
      · exact before
      · exact absurd own.symm different

theorem WatchOrdered.step {action : WatchAction} (admitted : state.Admits action)
    (isStep : state.step action = some after) : WatchOrdered after := by
  cases action with
  | call sessionId =>
    cases isStep
    exact ordered.call sessionId (normalInterest_collect admitted)
  | record =>
    rw [WatchState.step] at isStep
    split at isStep
    · rename_i sessionId interest found
      cases isStep
      exact ordered.record found rfl
    · cases isStep
  | union =>
    rw [WatchState.step] at isStep
    split at isStep
    · rename_i sessionId interest found
      cases isStep
      exact ordered.union found rfl
    · cases isStep
  | apply _ watching =>
    rw [WatchState.step] at isStep
    split at isStep
    · rename_i sessionId interest number union found
      cases isStep
      apply ordered.apply found watching
      rintro down ⟨other, mem, own, isDown⟩
      exact admitted _ found (number, union) rfl other mem own down isDown
    · cases isStep
  | returns =>
    rw [WatchState.step] at isStep
    split at isStep
    · rename_i sessionId interest number union result found
      cases isStep
      exact ordered.returns found rfl rfl
    · cases isStep

end

theorem watchOrdered_of_reaches
    (reaches : (watchMachine.guarded WatchState.Admits).Reaches state) : WatchOrdered state := by
  apply reaches.invariant
  · rintro state ⟨noWatches, noCalls, uninstalled⟩
    refine ⟨by simp [noCalls], by simp [noWatches], by simp [noCalls], fun workspaceId => ?_⟩
    exact .inl ⟨uninstalled workspaceId, by simp [PutDown, noCalls]⟩
  · exact fun state action after _ ordered isStep => ordered.step isStep.1 isStep.2

theorem WatchState.Settled.putDown_ok (settled : state.Settled)
    {down : Nat × BrowseInterest × Except String Unit} (isDown : PutDown state workspaceId down) :
    down.2.2 = .ok () := by
  obtain ⟨call, mem, -, isDown⟩ := isDown
  obtain ⟨_, _, hasReturned⟩ := settled call mem
  rw [hasReturned] at isDown
  cases isDown
  rfl

theorem WatchState.Settled.putDown (settled : state.Settled) {call : WatchCall}
    (mem : call ∈ state.calls) {number : Nat} {union : BrowseInterest}
    (isTaken : call.phase.taken = some (number, union)) :
    PutDown state (state.workspaceOf call) (number, union, .ok ()) := by
  obtain ⟨_, union, hasReturned⟩ := settled call mem
  rw [hasReturned] at isTaken
  cases isTaken
  exact ⟨call, mem, rfl, by rw [hasReturned]; rfl⟩

/-- When all calls have returned, what is installed is the union of the recorded interests. -/
theorem watch_converges (reaches : (watchMachine.guarded WatchState.Admits).Reaches state)
    (settled : state.Settled) (workspaceId : String) :
    state.hub workspaceId = (state.unionInterestForWorkspace workspaceId).installed := by
  have kept := watchKept_of_reaches reaches.of_guarded
  have latest := (watchOrdered_of_reaches reaches).latest workspaceId
  rcases kept.current workspaceId with ⟨waiting, mem, -, isRecorded⟩ | ⟨unrecorded, untaken⟩ |
    ⟨call, mem, rfl, number, isTaken, greatest⟩
  · obtain ⟨number, union, hasReturned⟩ := settled waiting mem
    cases isRecorded.symm.trans hasReturned
  · have noUnion : (state.unionInterestForWorkspace workspaceId).installed = none := by
      simp [unionInterestForWorkspace, unrecorded, BrowseInterest.installed,
        BrowseInterest.isEmpty, eq_nil_iff_forall_not_mem]
    rw [noUnion]
    rcases latest with ⟨uninstalled, -⟩ | ⟨last, ⟨call, mem, own, isDown⟩, -, -⟩
    · exact uninstalled
    · have isTaken := WatchPhase.taken_of_putDown isDown
      cases (untaken call mem own).symm.trans isTaken
  · have isDown := settled.putDown mem isTaken
    rcases latest with ⟨-, noneDown⟩ | ⟨last, lastDown, installs, after⟩
    · exact absurd isDown (noneDown _)
    · have lastOk := settled.putDown_ok lastDown
      obtain ⟨other, isOther, own, lastDown⟩ := lastDown
      have otherTaken := WatchPhase.taken_of_putDown lastDown
      -- Both are the greatest, so it is one union.
      have same := le_antisymm (greatest other isOther own _ otherTaken) (after _ isDown)
      have sameUnion := kept.unique other isOther call mem _ otherTaken _ isTaken same
      rw [installs lastOk, (Prod.mk.inj sameUnion).2]

def WatchPhase.isDone : WatchPhase → Bool
  | .returned _ _ (.ok _) => true
  | _ => false

theorem settled_of_all (done : state.calls.all fun call => call.phase.isDone) : state.Settled := by
  intro call mem
  have isDone := List.all_eq_true.mp done call mem
  obtain ⟨_, _, phase⟩ := call
  cases phase with
  | returned number union result =>
    cases result with
    | ok => exact ⟨number, union, rfl⟩
    | error => cases isDone
  | _ => cases isDone

def sampleWatch : WatchState := ⟨fun _ => "workspace", [], 0, [], fun _ => none⟩

theorem sampleWatch_reaches : watchMachine.Reaches sampleWatch :=
  .start ⟨rfl, rfl, fun _ => rfl⟩

/-- Two sessions have the runtime watch a directory each. -/
def browsersRun : List WatchAction :=
  [.call "first" ["docs"] [], .call "second" ["src"] [], .record 0, .union 0, .record 1, .union 1]

/-- The older command takes effect last. -/
def overtakenRun : List WatchAction :=
  browsersRun ++ [.apply 1 (.ok ()), .apply 0 (.ok ()), .returns 0, .returns 1]

/-- The directory of the second session is not watched, though both calls have returned. -/
theorem watch_overtaken : ¬ ∀ state, watchMachine.Reaches state → state.Settled →
    ∀ workspaceId, state.hub workspaceId
      = (state.unionInterestForWorkspace workspaceId).installed := by
  intro converges
  have ends : (overtakenRun.foldlM step sampleWatch).any fun state =>
      state.calls.all (fun call => call.phase.isDone) && state.hub "workspace"
        != (state.unionInterestForWorkspace "workspace").installed := by
    decide +kernel
  obtain ⟨state, isRun, ends⟩ := (Option.any_eq_true _ _).mp ends
  obtain ⟨done, differs⟩ := Bool.and_eq_true_iff.mp ends
  have reaches := Machine.Reaches.run sampleWatch_reaches isRun
  exact bne_iff_ne.mp differs (converges state reaches (settled_of_all done) "workspace")

/-- The commands take effect in order. -/
def orderlyRun : List WatchAction :=
  browsersRun ++ [.apply 0 (.ok ()), .apply 1 (.ok ()), .returns 1, .returns 0]

/-- Both directories are watched. -/
theorem orderlyRun_converges : ∃ state,
    (watchMachine.guarded WatchState.Admits).Reaches state ∧ state.Settled ∧
      (state.unionInterestForWorkspace "workspace").directories.keys = ["docs", "src"] ∧
      state.hub "workspace" = (state.unionInterestForWorkspace "workspace").installed := by
  have ends : (orderlyRun.foldlM (fun state action => if decide (state.Admits action) then
      state.step action else none) sampleWatch).any fun state =>
        state.calls.all (fun call => call.phase.isDone) &&
          (state.unionInterestForWorkspace "workspace").directories.keys == ["docs", "src"] := by
    decide +kernel
  obtain ⟨state, isRun, ends⟩ := (Option.any_eq_true _ _).mp ends
  obtain ⟨done, union⟩ := Bool.and_eq_true_iff.mp ends
  have reaches : (watchMachine.guarded WatchState.Admits).Reaches state :=
    Machine.Reaches.checkedRun (fun _ _ => of_decide_eq_true) (.start ⟨rfl, rfl, fun _ => rfl⟩)
      isRun
  exact ⟨state, reaches, settled_of_all done, beq_iff_eq.mp union,
    watch_converges reaches (settled_of_all done) "workspace"⟩

end PiRelay.Runtime
