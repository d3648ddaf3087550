import PiRelay.AgentProvider.CatalogCache
import PiRelay.Library.Eviction
import PiRelay.Library.Machine

/-! The cache of model metadata. Each model has an entry with its last known good metadata,
the time of the last success, and the refresh that may commit next. The cache is bounded, and
refreshes in flight may take it beyond the bound. Times are nanoseconds. -/
namespace PiRelay.AgentProvider

open List
open Library (Evictable Machine)

def modelCacheCapacity : Nat := 64

/-- Six hours. -/
def modelCacheSuccessTtl : Nat := 21600 * 10 ^ 9

/-- One minute. -/
def modelCacheFailureTtl : Nat := 60 * 10 ^ 9

variable {Metadata : Type}

structure ModelRefresh where
  generation : Nat
deriving DecidableEq

structure CachedAnthropicModel (Metadata : Type) where
  fetchedAt : Option Nat := none
  retryAfter : Option Nat := none
  model : Option Metadata := none
  refresh : Option ModelRefresh := none
  lastAccess : Nat
deriving DecidableEq

inductive ModelCacheDecision (Metadata : Type) where
  | «return» (metadata : Option Metadata)
  | wait (refresh : ModelRefresh)
  | start (refresh : ModelRefresh)

/-- The entries are listed in the order in which the map happens to iterate. -/
structure AnthropicModelCacheState (Metadata : Type) where
  entries : List (String × CachedAnthropicModel Metadata) := []
  nextGeneration : Nat := 0
  accessCounter : Nat := 0

namespace CachedAnthropicModel

variable (cached : CachedAnthropicModel Metadata)

/-- A success that is less than its time to live old. -/
def isFresh (now : Nat) : Bool :=
  match cached.model, cached.fetchedAt with
  | some _, some fetchedAt => now - fetchedAt < modelCacheSuccessTtl
  | _, _ => false

/-- A failed refresh is not repeated yet. -/
def isBackingOff (now : Nat) : Bool :=
  cached.retryAfter.any fun retryAfter => now < retryAfter

def settle (resolved : Option Metadata) (lastAccess now : Nat) : CachedAnthropicModel Metadata :=
  match resolved with
  | some resolved =>
    { fetchedAt := some now, retryAfter := none, model := some resolved, refresh := none,
      lastAccess }
  | none =>
    { cached with
      retryAfter := some (now + modelCacheFailureTtl), refresh := none, lastAccess }

end CachedAnthropicModel

namespace AnthropicModelCacheState

def evictable : Evictable (String × CachedAnthropicModel Metadata) String where
  key := Prod.fst
  lastUse entry := entry.2.lastAccess
  settled entry := entry.2.refresh.isNone

variable (state : AnthropicModelCacheState Metadata)

def evictForInsert : AnthropicModelCacheState Metadata :=
  { state with
    entries := evictable.evictWhile (fun length => modelCacheCapacity ≤ length) state.entries }

def trimToCapacity : AnthropicModelCacheState Metadata :=
  { state with
    entries := evictable.evictWhile (fun length => modelCacheCapacity < length) state.entries }

variable (model : String)

/-- `entries.get_mut`. -/
def update (change : CachedAnthropicModel Metadata → CachedAnthropicModel Metadata) :
    AnthropicModelCacheState Metadata :=
  { state with
    entries := state.entries.map fun entry =>
      if entry.1 = model then (entry.1, change entry.2) else entry }

def insert (cached : CachedAnthropicModel Metadata) : AnthropicModelCacheState Metadata :=
  { state with entries := state.entries ++ [(model, cached)] }

/-- Every call but an abandonment counts as an access. -/
def access : AnthropicModelCacheState Metadata :=
  { state with accessCounter := saturatingSucc state.accessCounter }

def startRefresh : AnthropicModelCacheState Metadata × ModelCacheDecision Metadata :=
  let generation := saturatingSucc state.nextGeneration
  let started := state.update model fun cached =>
    { cached with retryAfter := none, refresh := some { generation } }
  ({ started with nextGeneration := generation }, .start { generation })

def decision (now : Nat) : AnthropicModelCacheState Metadata × ModelCacheDecision Metadata :=
  let state := state.access
  let lastAccess := state.accessCounter
  match state.entries.lookup model with
  | some cached =>
    let state := state.update model fun cached => { cached with lastAccess }
    if cached.isFresh now || cached.isBackingOff now then (state, .return cached.model)
    else
      match cached.refresh with
      | some refresh => (state, .wait refresh)
      | none => state.startRefresh model
  | none => (state.evictForInsert.insert model { lastAccess }).startRefresh model

def commitRefresh (generation : Nat) (resolved : Option Metadata) (now : Nat) :
    AnthropicModelCacheState Metadata × Option Metadata :=
  let state := state.access
  let lastAccess := state.accessCounter
  match state.entries.lookup model with
  | none => (state, resolved)
  | some cached =>
    if cached.refresh = some { generation } then
      ((state.update model fun cached => cached.settle resolved lastAccess now).trimToCapacity,
        (cached.settle resolved lastAccess now).model)
    else (state, cached.model)

def abandonRefresh (generation : Nat) : AnthropicModelCacheState Metadata :=
  match state.entries.lookup model with
  | none => state
  | some cached =>
    if cached.refresh = some { generation } then
      (state.update model fun cached => { cached with refresh := none }).trimToCapacity
    else state

/-- The refresh of this generation is installed for the model. -/
def Installs (generation : Nat) : Prop :=
  ∃ cached, (model, cached) ∈ state.entries ∧ cached.refresh = some { generation }

/-- Each model has one entry, and the cache is beyond its capacity only while every entry is
refreshing. -/
structure Bounded (state : AnthropicModelCacheState Metadata) : Prop where
  distinct : (state.entries.map Prod.fst).Nodup
  bounded : state.entries.length ≤ modelCacheCapacity ∨
    ∀ entry ∈ state.entries, entry.2.refresh.isNone = false

variable {state : AnthropicModelCacheState Metadata} {model other : String} {now generation : Nat}
  {cached : CachedAnthropicModel Metadata} {entry : String × CachedAnthropicModel Metadata}
  {change : CachedAnthropicModel Metadata → CachedAnthropicModel Metadata}

theorem mem_of_lookup (found : state.entries.lookup model = some cached) :
    (model, cached) ∈ state.entries := by
  obtain ⟨_, _, split, -⟩ := lookup_eq_some_iff.mp found
  rw [split]
  exact mem_append_right _ (.head _)

theorem not_mem_of_lookup (missing : state.entries.lookup model = none) :
    model ∉ state.entries.map Prod.fst := by
  intro mem
  obtain ⟨entry, isEntry, rfl⟩ := mem_map.mp mem
  have different := lookup_eq_none_iff.mp missing entry isEntry
  simp at different

theorem Bounded.eq_of_mem (bounded : state.Bounded) {first second : CachedAnthropicModel Metadata}
    (isFirst : (model, first) ∈ state.entries) (isSecond : (model, second) ∈ state.entries) :
    first = second := by
  have equal := inj_on_of_nodup_map bounded.distinct isFirst isSecond rfl
  exact congrArg Prod.snd equal

@[simp] theorem update_keys : (state.update model change).entries.map Prod.fst =
    state.entries.map Prod.fst := by
  rw [update, map_map]
  refine map_congr_left fun entry _ => ?_
  change Prod.fst (if entry.1 = model then (entry.1, change entry.2) else entry) = entry.1
  split <;> rfl

theorem update_length : (state.update model change).entries.length = state.entries.length :=
  length_map _

theorem mem_update_iff : entry ∈ (state.update model change).entries ↔
    (entry.1 ≠ model ∧ entry ∈ state.entries) ∨
      ∃ cached, (model, cached) ∈ state.entries ∧ entry = (model, change cached) := by
  rw [update, mem_map]
  constructor
  · rintro ⟨before, mem, rfl⟩
    by_cases same : before.1 = model
    · subst same
      rw [if_pos rfl]
      exact .inr ⟨before.2, mem, rfl⟩
    · rw [if_neg same]
      exact .inl ⟨same, mem⟩
  · rintro (⟨different, mem⟩ | ⟨cached, mem, rfl⟩)
    · exact ⟨entry, mem, if_neg different⟩
    · exact ⟨(model, cached), mem, if_pos rfl⟩

theorem trims (distinct : (state.entries.map Prod.fst).Nodup) (exceeds : Nat → Bool) :
    evictable.Trims exceeds state.entries (evictable.evictWhile exceeds state.entries) :=
  Evictable.evictWhile_trims distinct

theorem trimToCapacity_bounded (distinct : (state.entries.map Prod.fst).Nodup) :
    state.trimToCapacity.Bounded := by
  have trims := trims distinct fun length => modelCacheCapacity < length
  refine ⟨distinct.sublist (trims.sublist.map _), ?_⟩
  rcases trims.bounded with fits | refreshing
  · exact .inl (Nat.le_of_not_lt (of_decide_eq_false fits))
  · exact .inr refreshing

theorem startRefresh_entries (state : AnthropicModelCacheState Metadata) (model : String) :
    (state.startRefresh model).1.entries = (state.update model fun cached =>
      { cached with
        retryAfter := none, refresh := some ⟨saturatingSucc state.nextGeneration⟩ }).entries :=
  rfl

theorem Bounded.startRefresh (bounded : state.Bounded) (model : String) :
    (state.startRefresh model).1.Bounded := by
  constructor
  · rw [startRefresh_entries, update_keys]
    exact bounded.distinct
  · rw [startRefresh_entries, update_length]
    refine bounded.bounded.imp_right fun refreshing entry mem => ?_
    rcases mem_update_iff.mp mem with ⟨-, old⟩ | ⟨cached, old, rfl⟩
    · exact refreshing entry old
    · rfl

theorem insert_startRefresh_bounded (distinct : (state.entries.map Prod.fst).Nodup)
    (missing : model ∉ state.entries.map Prod.fst) :
    ((state.evictForInsert.insert model cached).startRefresh model).1.Bounded := by
  have trims := trims distinct fun length => modelCacheCapacity ≤ length
  constructor
  · rw [startRefresh_entries, update_keys, insert, map_append]
    have gone : model ∉ state.evictForInsert.entries.map Prod.fst := fun mem =>
      missing ((trims.sublist.map Prod.fst).subset mem)
    exact (distinct.sublist (trims.sublist.map _)).append (nodup_singleton _)
      (disjoint_singleton.mpr gone)
  · rw [startRefresh_entries, update_length]
    rcases trims.bounded with fits | refreshing
    · have room := of_decide_eq_false fits
      refine .inl ?_
      rw [insert, length_append, length_singleton]
      exact Nat.lt_of_not_le room
    · refine .inr fun entry mem => ?_
      rcases mem_update_iff.mp mem with ⟨different, old⟩ | ⟨cached, old, rfl⟩
      · rcases Library.mem_concat.mp old with among | rfl
        · exact refreshing entry among
        · exact absurd rfl different
      · rfl

theorem Bounded.decision (bounded : state.Bounded) (model : String) (now : Nat) :
    (state.decision model now).1.Bounded := by
  rw [AnthropicModelCacheState.decision]
  split
  · rename_i cached found
    have touched : (state.access.update model fun cached =>
        { cached with lastAccess := state.access.accessCounter }).Bounded := by
      refine ⟨by rw [update_keys]; exact bounded.distinct, ?_⟩
      rw [update_length]
      refine bounded.bounded.imp_right fun refreshing entry mem => ?_
      rcases mem_update_iff.mp mem with ⟨-, old⟩ | ⟨cached, old, rfl⟩
      · exact refreshing entry old
      · exact refreshing (model, cached) old
    split
    · exact touched
    · split
      · exact touched
      · exact touched.startRefresh model
  · rename_i missing
    have absent := not_mem_of_lookup missing
    exact insert_startRefresh_bounded bounded.distinct absent

theorem Bounded.commitRefresh (bounded : state.Bounded) (model : String) (generation : Nat)
    (resolved : Option Metadata) (now : Nat) :
    (state.commitRefresh model generation resolved now).1.Bounded := by
  have accessed : state.access.Bounded := ⟨bounded.distinct, bounded.bounded⟩
  rw [AnthropicModelCacheState.commitRefresh]
  split
  · exact accessed
  · split
    · exact trimToCapacity_bounded (by rw [update_keys]; exact bounded.distinct)
    · exact accessed

theorem Bounded.abandonRefresh (bounded : state.Bounded) (model : String) (generation : Nat) :
    (state.abandonRefresh model generation).Bounded := by
  rw [AnthropicModelCacheState.abandonRefresh]
  split
  · exact bounded
  · split
    · exact trimToCapacity_bounded (by rw [update_keys]; exact bounded.distinct)
    · exact bounded

theorem mem_trim_update (distinct : (state.entries.map Prod.fst).Nodup)
    (mem : (other, cached) ∈ state.entries) (different : other ≠ model)
    (refreshing : cached.refresh.isNone = false) :
    (other, cached) ∈ (state.update model change).trimToCapacity.entries := by
  have stays : (other, cached) ∈ (state.update model change).entries :=
    mem_update_iff.mpr (.inl ⟨different, mem⟩)
  have sameKeys : ((state.update model change).entries.map Prod.fst).Nodup := by
    rw [update_keys]
    exact distinct
  exact (trims sameKeys fun length => modelCacheCapacity < length).keeps _ stays refreshing

theorem commitRefresh_entries_of_stale (stale : ¬ state.Installs model generation)
    (resolved : Option Metadata) (now : Nat) :
    (state.commitRefresh model generation resolved now).1.entries = state.entries := by
  rw [AnthropicModelCacheState.commitRefresh]
  split
  · rfl
  · rename_i cached found
    rw [if_neg]
    · rfl
    · intro installed
      have isEntry := mem_of_lookup found
      exact stale ⟨cached, isEntry, installed⟩

section

variable (installed : state.Installs other generation)
include installed

theorem Installs.update_other (different : other ≠ model) :
    (state.update model change).Installs other generation := by
  obtain ⟨cached, mem, isInstalled⟩ := installed
  exact ⟨cached, mem_update_iff.mpr (.inl ⟨different, mem⟩), isInstalled⟩

theorem Installs.update_same (same : ∀ cached, (change cached).refresh = cached.refresh) :
    (state.update model change).Installs other generation := by
  obtain ⟨cached, mem, isInstalled⟩ := installed
  by_cases isModel : other = model
  · subst isModel
    exact ⟨change cached, mem_update_iff.mpr (.inr ⟨cached, mem, rfl⟩),
      (same cached).trans isInstalled⟩
  · exact ⟨cached, mem_update_iff.mpr (.inl ⟨isModel, mem⟩), isInstalled⟩

theorem Installs.trim (distinct : (state.entries.map Prod.fst).Nodup) :
    state.trimToCapacity.Installs other generation := by
  obtain ⟨cached, mem, isInstalled⟩ := installed
  have refreshing : cached.refresh.isNone = false := by rw [isInstalled]; rfl
  exact ⟨cached, (trims distinct _).keeps _ mem refreshing, isInstalled⟩

theorem Installs.startRefresh (different : other ≠ model) :
    (state.startRefresh model).1.Installs other generation := by
  obtain ⟨cached, mem, isInstalled⟩ := installed
  refine ⟨cached, ?_, isInstalled⟩
  rw [startRefresh_entries]
  exact mem_update_iff.mpr (.inl ⟨different, mem⟩)

theorem Installs.decision (bounded : state.Bounded) (model : String) (now : Nat) :
    (state.decision model now).1.Installs other generation := by
  have accessed : state.access.Installs other generation := installed
  rw [AnthropicModelCacheState.decision]
  split
  · rename_i cached found
    have touched : (state.access.update model fun cached =>
        { cached with lastAccess := state.access.accessCounter }).Installs other generation :=
      accessed.update_same fun _ => rfl
    split
    · exact touched
    · split
      · exact touched
      · rename_i vacant
        refine touched.startRefresh ?_
        rintro rfl
        obtain ⟨_, mem, isInstalled⟩ := installed
        have isEntry := mem_of_lookup found
        obtain rfl := bounded.eq_of_mem mem isEntry
        rw [isInstalled] at vacant
        cases vacant
  · rename_i missing
    obtain ⟨cached, mem, isInstalled⟩ := installed
    have refreshing : cached.refresh.isNone = false := by rw [isInstalled]; rfl
    have stays := (trims bounded.distinct fun length => modelCacheCapacity ≤ length).keeps _ mem
      refreshing
    have inserted : (state.access.evictForInsert.insert model
        { lastAccess := state.access.accessCounter }).Installs other generation :=
      ⟨cached, mem_append_left _ stays, isInstalled⟩
    refine inserted.startRefresh ?_
    rintro rfl
    have absent := not_mem_of_lookup missing
    exact absent (mem_map_of_mem mem)

end

variable {another : Nat}

section

variable (installed : state.Installs other generation)
include installed

theorem Installs.settle (bounded : state.Bounded) (settles : state.Installs model another)
    (unlike : ¬ (other = model ∧ generation = another)) :
    (state.update model change).trimToCapacity.Installs other generation := by
  refine Installs.trim (Installs.update_other installed ?_) ?_
  · rintro rfl
    obtain ⟨_, isFirst, hFirst⟩ := installed
    obtain ⟨_, isSecond, hSecond⟩ := settles
    obtain rfl := bounded.eq_of_mem isFirst isSecond
    have same := Option.some.inj (hFirst.symm.trans hSecond)
    exact unlike ⟨rfl, congrArg ModelRefresh.generation same⟩
  · rw [update_keys]
    exact bounded.distinct

theorem Installs.commitRefresh (bounded : state.Bounded)
    (unlike : ¬ (other = model ∧ generation = another)) (resolved : Option Metadata) (now : Nat) :
    (state.commitRefresh model another resolved now).1.Installs other generation := by
  have accessed : state.access.Bounded := ⟨bounded.distinct, bounded.bounded⟩
  rw [AnthropicModelCacheState.commitRefresh]
  split
  · exact installed
  · rename_i cached found
    split
    · rename_i isInstalled
      have settles : state.access.Installs model another :=
        ⟨cached, mem_of_lookup found, isInstalled⟩
      have accessedOther : state.access.Installs other generation := installed
      exact accessedOther.settle accessed settles unlike
    · exact installed

theorem Installs.abandonRefresh (bounded : state.Bounded)
    (unlike : ¬ (other = model ∧ generation = another)) :
    (state.abandonRefresh model another).Installs other generation := by
  rw [AnthropicModelCacheState.abandonRefresh]
  split
  · exact installed
  · rename_i cached found
    split
    · rename_i isInstalled
      exact installed.settle bounded ⟨cached, mem_of_lookup found, isInstalled⟩ unlike
    · exact installed

end

/-- The model has metadata that was committed at the time. -/
def Holds (state : AnthropicModelCacheState Metadata) (model : String) (metadata : Metadata)
    (fetchedAt : Option Nat) : Prop :=
  ∃ cached, (model, cached) ∈ state.entries ∧ cached.model = some metadata ∧
    cached.fetchedAt = fetchedAt

section

variable {metadata : Metadata} {fetchedAt : Option Nat}
  (holds : state.Holds other metadata fetchedAt) (bounded : state.Bounded)
  (spared : other ≠ model ∨ state.entries.length ≤ modelCacheCapacity)
include holds bounded spared

/-- A refresh that is settled leaves the metadata of the others. -/
theorem Holds.settle (same : ∀ cached, (change cached).model = cached.model ∧
      (change cached).fetchedAt = cached.fetchedAt) :
    (state.update model change).trimToCapacity.Holds other metadata fetchedAt := by
  obtain ⟨cached, mem, isModel, isFetched⟩ := holds
  by_cases fits : state.entries.length ≤ modelCacheCapacity
  · have fitting : decide (modelCacheCapacity < (state.update model change).entries.length) =
        false := decide_eq_false (by rw [update_length]; exact Nat.not_lt_of_le fits)
    have whole : (state.update model change).trimToCapacity.entries =
        (state.update model change).entries := Evictable.evictWhile_of_fits fitting
    rw [Holds, whole]
    by_cases isOther : other = model
    · subst isOther
      obtain ⟨sameModel, sameFetched⟩ := same cached
      exact ⟨change cached, mem_update_iff.mpr (.inr ⟨cached, mem, rfl⟩),
        sameModel.trans isModel, sameFetched.trans isFetched⟩
    · exact ⟨cached, mem_update_iff.mpr (.inl ⟨isOther, mem⟩), isModel, isFetched⟩
  · have different := spared.resolve_right fits
    have refreshing := bounded.bounded.resolve_left fits _ mem
    exact ⟨cached, mem_trim_update bounded.distinct mem different refreshing, isModel, isFetched⟩

theorem Holds.commitRefresh (generation now : Nat) :
    (state.commitRefresh model generation none now).1.Holds other metadata fetchedAt := by
  have accessed : state.access.Bounded := ⟨bounded.distinct, bounded.bounded⟩
  have held : state.access.Holds other metadata fetchedAt := holds
  rw [AnthropicModelCacheState.commitRefresh]
  split
  · exact held
  · split
    · exact held.settle accessed spared fun _ => ⟨rfl, rfl⟩
    · exact held

end

end AnthropicModelCacheState

inductive ModelCacheLabel (Metadata : Type) where
  | decide (model : String) (now : Nat)
  | commit (model : String) (generation : Nat) (resolved : Option Metadata) (now : Nat)
  | abandon (model : String) (generation : Nat)
  /-- The map does not say in which order it iterates. -/
  | reorder (entries : List (String × CachedAnthropicModel Metadata))

structure ModelCacheRun (Metadata : Type) where
  cache : AnthropicModelCacheState Metadata := {}
  clock : Nat := 0

namespace ModelCacheRun

variable [DecidableEq Metadata]

def step (run : ModelCacheRun Metadata) :
    ModelCacheLabel Metadata → Option (ModelCacheRun Metadata)
  | .decide model now =>
    if run.clock ≤ now then some { cache := (run.cache.decision model now).1, clock := now }
    else none
  | .commit model generation resolved now =>
    if run.clock ≤ now then
      some { cache := (run.cache.commitRefresh model generation resolved now).1, clock := now }
    else none
  | .abandon model generation =>
    some { run with cache := run.cache.abandonRefresh model generation }
  | .reorder entries =>
    if entries.Perm run.cache.entries then some { run with cache := { run.cache with entries } }
    else none

def machine : Machine (ModelCacheRun Metadata) (ModelCacheLabel Metadata) :=
  .ofSteps (· = {}) step

/-- The refresh that a call settles. -/
def Settles (label : ModelCacheLabel Metadata) (model : String) (generation : Nat) : Prop :=
  match label with
  | .commit settled settles _ _ | .abandon settled settles => model = settled ∧ generation = settles
  | _ => False

variable {run after : ModelCacheRun Metadata} {label : ModelCacheLabel Metadata}

/-- A step of the cache keeps its bound. -/
theorem bounded_step (bounded : run.cache.Bounded) (stepped : run.step label = some after) :
    after.cache.Bounded := by
  cases label with
  | decide model now =>
    rw [step] at stepped
    split at stepped
    · cases stepped
      exact bounded.decision model now
    · cases stepped
  | commit model generation resolved now =>
    rw [step] at stepped
    split at stepped
    · cases stepped
      exact bounded.commitRefresh model generation resolved now
    · cases stepped
  | abandon model generation =>
    cases stepped
    exact bounded.abandonRefresh model generation
  | reorder =>
    rw [step] at stepped
    split at stepped
    · rename_i permuted
      cases stepped
      refine ⟨(permuted.map Prod.fst).nodup_iff.mpr bounded.distinct, ?_⟩
      refine bounded.bounded.imp ?_ fun refreshing entry mem => ?_
      · intro fits
        exact Nat.le_trans (Nat.le_of_eq permuted.length_eq) fits
      · exact refreshing entry (permuted.mem_iff.mp mem)
    · cases stepped

theorem bounded_of_reaches (reaches : machine.Reaches run) : run.cache.Bounded := by
  refine reaches.invariant ?_ fun _ _ _ _ bounded stepped => bounded_step bounded stepped
  rintro _ rfl
  exact ⟨nodup_nil, .inl (Nat.zero_le _)⟩

theorem installs_step {model : String} {generation : Nat} (bounded : run.cache.Bounded)
    (installed : run.cache.Installs model generation) (stepped : run.step label = some after)
    (unsettled : ¬ Settles label model generation) : after.cache.Installs model generation := by
  cases label with
  | decide other now =>
    rw [step] at stepped
    split at stepped
    · cases stepped
      exact installed.decision bounded other now
    · cases stepped
  | commit _ _ resolved now =>
    rw [step] at stepped
    split at stepped
    · cases stepped
      exact installed.commitRefresh bounded unsettled resolved now
    · cases stepped
  | abandon =>
    cases stepped
    exact installed.abandonRefresh bounded unsettled
  | reorder =>
    rw [step] at stepped
    split at stepped
    · rename_i permuted
      cases stepped
      obtain ⟨cached, mem, isInstalled⟩ := installed
      exact ⟨cached, permuted.mem_iff.mpr mem, isInstalled⟩
    · cases stepped

structure Guarantees (run : ModelCacheRun Metadata) : Prop where
  /-- A model has at most one refresh. -/
  oneRefresh : ∀ model first second, run.cache.Installs model first →
    run.cache.Installs model second → first = second
  /-- No step evicts an entry that is refreshing. -/
  refreshing : ∀ label after model generation, run.step label = some after →
    run.cache.Installs model generation → ¬ Settles label model generation →
      after.cache.Installs model generation
  bounded : run.cache.entries.length ≤ modelCacheCapacity ∨
    ∀ entry ∈ run.cache.entries, entry.2.refresh.isNone = false
  /-- A commit that comes too late changes no entry. -/
  stale : ∀ model generation, ¬ run.cache.Installs model generation → ∀ resolved now,
    (run.cache.commitRefresh model generation resolved now).1.entries = run.cache.entries
  /-- A failed refresh keeps all metadata and its dates. Only where the cache is beyond its
  capacity may the entry of the failed refresh go. -/
  failed : ∀ model generation now, ∀ other metadata fetchedAt,
    run.cache.Holds other metadata fetchedAt →
    other ≠ model ∨ run.cache.entries.length ≤ modelCacheCapacity →
      (run.cache.commitRefresh model generation none now).1.Holds other metadata fetchedAt

theorem model_guarantees_of_reaches (reaches : machine.Reaches run) : run.Guarantees where
  oneRefresh model first second isFirst isSecond := by
    obtain ⟨_, mem, hFirst⟩ := isFirst
    obtain ⟨other, isOther, hSecond⟩ := isSecond
    obtain rfl := (bounded_of_reaches reaches).eq_of_mem mem isOther
    exact congrArg ModelRefresh.generation (Option.some.inj (hFirst.symm.trans hSecond))
  refreshing label after model generation stepped installed unsettled :=
    installs_step (bounded_of_reaches reaches) installed stepped unsettled
  bounded := (bounded_of_reaches reaches).bounded
  stale model generation stale resolved now :=
    AnthropicModelCacheState.commitRefresh_entries_of_stale stale resolved now
  failed model generation now other metadata fetchedAt holds spared :=
    holds.commitRefresh (bounded_of_reaches reaches) spared generation now

/-- The metadata that a refresh committed is there. -/
theorem model_guarantees_of_reaches_committed : ∃ run : ModelCacheRun Nat,
    run.cache.Holds "claude" 7 (some 1) ∧ run.Guarantees := by
  let script : List (ModelCacheLabel Nat) := [.decide "claude" 0, .commit "claude" 1 (some 7) 1]
  obtain ⟨run, isRun, isHeld⟩ : ∃ run, script.foldlM step {} = some run ∧
      run.cache.entries = [("claude", ⟨some 1, none, some 7, none, 2⟩)] := ⟨_, rfl, by decide⟩
  refine ⟨run, ⟨⟨some 1, none, some 7, none, 2⟩, ?_, rfl, rfl⟩, ?_⟩
  · rw [isHeld]
    exact .head _
  · exact model_guarantees_of_reaches (.run (.start rfl) isRun)

/-- A model has metadata that expires. Its next refresh is in flight when as many other
models are asked for as the cache has room for. -/
def overflow : List (ModelCacheLabel Nat) :=
  [.decide "claude" 0, .commit "claude" 1 (some 7) 0, .decide "claude" modelCacheSuccessTtl] ++
    (List.range modelCacheCapacity).map fun index =>
      .decide (toString index) modelCacheSuccessTtl

/-- The refresh fails, and the metadata is gone. -/
theorem overflow_drops_metadata : ¬ ∀ run : ModelCacheRun Nat, machine.Reaches run →
    ∀ model generation now other metadata fetchedAt, run.cache.Holds other metadata fetchedAt →
      (run.cache.commitRefresh model generation none now).1.Holds other metadata fetchedAt := by
  intro keeps
  let failed (run : ModelCacheRun Nat) :=
    run.cache.commitRefresh "claude" 2 none modelCacheSuccessTtl
  have facts : (overflow.foldlM step {}).map (fun run =>
      (run.cache.entries.any fun entry =>
          entry.1 = "claude" && entry.2.model = some 7 && entry.2.fetchedAt = some 0,
        (failed run).1.entries.any fun entry => entry.1 = "claude")) = some (true, false) := by
    decide +kernel
  obtain ⟨run, isRun, hFacts⟩ := Option.map_eq_some_iff.mp facts
  obtain ⟨held, gone⟩ := Prod.mk.inj hFacts
  obtain ⟨⟨_, cached⟩, mem, isHeld⟩ := any_eq_true.mp held
  simp only [Bool.and_eq_true, decide_eq_true_eq] at isHeld
  obtain ⟨⟨rfl, isModel⟩, isFetched⟩ := isHeld
  have reaches : machine.Reaches run := .run (.start rfl) isRun
  obtain ⟨_, isKept, -⟩ := keeps run reaches "claude" 2 modelCacheSuccessTtl "claude" 7 (some 0)
    ⟨cached, mem, isModel, isFetched⟩
  exact any_eq_false.mp gone _ isKept (decide_eq_true rfl)

end ModelCacheRun

end PiRelay.AgentProvider
