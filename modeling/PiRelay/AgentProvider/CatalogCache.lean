import Mathlib.Algebra.Ring.Nat

/-! The cache of the model catalog. It has one slot: the key of the account it is for, the
catalog with the time at which it was committed, the last failure, and the refresh that may
commit next. Times are nanoseconds. -/
namespace PiRelay.AgentProvider

inductive OpenAiCatalogIdentity where
  | account (accountId : String)
  | tokenFingerprint (digest : List UInt8)
deriving DecidableEq

structure OpenAiCatalogKey where
  baseUrl : String
  identity : OpenAiCatalogIdentity
deriving DecidableEq

structure CatalogError where
  status : Option Nat
  message : String
deriving DecidableEq

/-- Five minutes. -/
def codexModelsSuccessTtl : Nat := 300 * 10 ^ 9

/-- Half a minute. -/
def codexModelsFailureTtl : Nat := 30 * 10 ^ 9

/-- The greatest `u64`. -/
def u64Max : Nat := 2 ^ 64 - 1

/-- `saturating_add(1)` of a `u64`. -/
def saturatingSucc (count : Nat) : Nat := min (count + 1) u64Max

structure CachedCatalogFailure where
  retryAfter : Nat
  error : CatalogError

/-- A refresh, and the channel on which its result is published. -/
structure CatalogRefresh where
  key : OpenAiCatalogKey
  generation : Nat
  receiver : Nat

inductive CatalogCacheDecision (Catalog : Type) where
  | «return» (result : Except CatalogError Catalog)
  | wait (refresh : CatalogRefresh)
  | start (refresh : CatalogRefresh)

structure OpenAiModelCatalogCacheState (Catalog : Type) where
  activeKey : Option OpenAiCatalogKey := none
  catalog : Option Catalog := none
  fetchedAt : Option Nat := none
  failure : Option CachedCatalogFailure := none
  refresh : Option CatalogRefresh := none
  nextGeneration : Nat := 0

namespace OpenAiModelCatalogCacheState

variable {Catalog : Type}

variable (state : OpenAiModelCatalogCacheState Catalog)

variable (key : OpenAiCatalogKey)

/-- Another key empties the slot. The generations go on. -/
def activate : OpenAiModelCatalogCacheState Catalog :=
  if state.activeKey = some key then state
  else { activeKey := some key, nextGeneration := state.nextGeneration }

/-- The catalog, when it was committed less than its time to live ago. -/
def freshCatalog (now : Nat) : Option Catalog :=
  match state.catalog, state.fetchedAt with
  | some catalog, some fetchedAt =>
    if now - fetchedAt < codexModelsSuccessTtl then some catalog else none
  | _, _ => none

/-- The failure that still holds refreshes back. -/
def recentFailure (now : Nat) : Option CachedCatalogFailure :=
  state.failure.filter fun failure => now < failure.retryAfter

def startRefresh (refresh : CatalogRefresh) : OpenAiModelCatalogCacheState Catalog :=
  { state with
    nextGeneration := refresh.generation, failure := none, refresh := some refresh }

def decision (now : Nat)
    (receiver : Nat) : OpenAiModelCatalogCacheState Catalog × CatalogCacheDecision Catalog :=
  let state := state.activate key
  match state.freshCatalog now, state.recentFailure now, state.refresh with
  | some catalog, _, _ => (state, .return (.ok catalog))
  | none, some failure, _ => (state, .return (.error failure.error))
  | none, none, some refresh => (state, .wait refresh)
  | none, none, none =>
    let generation := saturatingSucc state.nextGeneration
    let refresh := { key, generation, receiver }
    (state.startRefresh refresh, .start refresh)

def installs (generation : Nat) : Bool :=
  state.activeKey = some key &&
    state.refresh.any fun refresh => refresh.generation = generation && refresh.key = key

/-- The slot after the result of a refresh. A response that is not authorized is no reason to
hold the next refresh back. -/
def install (now : Nat) : Except CatalogError Catalog → OpenAiModelCatalogCacheState Catalog
  | .ok catalog =>
    { state with
      refresh := none, catalog := some catalog, fetchedAt := some now, failure := none }
  | .error error =>
    if error.status = some 401 then { state with refresh := none, failure := none }
    else
      let retryAfter := now + codexModelsFailureTtl
      { state with refresh := none, failure := some { retryAfter, error } }

def commitRefresh (generation : Nat) (result : Except CatalogError Catalog) (now : Nat) :
    OpenAiModelCatalogCacheState Catalog × Bool :=
  if state.installs key generation then (state.install now result, true) else (state, false)

def abandonRefresh (generation : Nat) : OpenAiModelCatalogCacheState Catalog :=
  if state.installs key generation then { state with refresh := none } else state

variable {state after : OpenAiModelCatalogCacheState Catalog} {key other : OpenAiCatalogKey}
  {generation now receiver : Nat}

section

variable (state : OpenAiModelCatalogCacheState Catalog)

theorem activate_activeKey
    (key : OpenAiCatalogKey) : (state.activate key).activeKey = some key := by
  rw [activate]
  split
  · assumption
  · rfl

theorem activate_nextGeneration
    (key : OpenAiCatalogKey) : (state.activate key).nextGeneration = state.nextGeneration := by
  rw [activate]
  split <;> rfl

theorem activate_cases (key : OpenAiCatalogKey) :
    (state.activeKey = some key ∧ state.activate key = state) ∨
      state.activate key = { activeKey := some key, nextGeneration := state.nextGeneration } := by
  rw [activate]
  split
  · rename_i same
    exact .inl ⟨same, rfl⟩
  · exact .inr rfl

end

theorem freshCatalog_eq_some {catalog : Catalog} (fresh : state.freshCatalog now = some catalog) :
    ∃ fetchedAt, state.catalog = some catalog ∧ state.fetchedAt = some fetchedAt ∧
      now - fetchedAt < codexModelsSuccessTtl := by
  rw [freshCatalog] at fresh
  split at fresh
  · rename_i found fetchedAt hCatalog hFetchedAt
    split at fresh
    · rename_i young
      cases fresh
      exact ⟨fetchedAt, hCatalog, hFetchedAt, young⟩
    · cases fresh
  · cases fresh

/-- The four decisions, with the slot each one leaves. -/
inductive Decides (state : OpenAiModelCatalogCacheState Catalog) (key : OpenAiCatalogKey)
    (now receiver : Nat) :
    OpenAiModelCatalogCacheState Catalog × CatalogCacheDecision Catalog → Prop where
  | fresh {catalog : Catalog} (fresh : (state.activate key).freshCatalog now = some catalog) :
      Decides state key now receiver (state.activate key, .return (.ok catalog))
  | failed {failure : CachedCatalogFailure}
      (recent : (state.activate key).recentFailure now = some failure) :
      Decides state key now receiver (state.activate key, .return (.error failure.error))
  | wait {refresh : CatalogRefresh} (installed : (state.activate key).refresh = some refresh) :
      Decides state key now receiver (state.activate key, .wait refresh)
  | start {refresh : CatalogRefresh} (vacant : (state.activate key).refresh = none)
      (isNew : refresh =
        { key, generation := saturatingSucc state.nextGeneration, receiver }) :
      Decides state key now receiver
        ((state.activate key).startRefresh refresh, .start refresh)

/-- The decision on a key, by what is cached and under way for it. -/
theorem decision_decides (state : OpenAiModelCatalogCacheState Catalog) (key : OpenAiCatalogKey)
    (now receiver : Nat) : state.Decides key now receiver (state.decision key now receiver) := by
  rw [decision]
  split
  · rename_i catalog hFresh
    exact .fresh hFresh
  · rename_i failure _ hRecent
    exact .failed hRecent
  · rename_i refresh _ _ hInstalled
    exact .wait hInstalled
  · rename_i hVacant
    exact .start hVacant (by rw [activate_nextGeneration])

theorem installs_iff : state.installs key generation ↔
    state.activeKey = some key ∧
      ∃ refresh, state.refresh = some refresh ∧ refresh.generation = generation ∧
        refresh.key = key := by
  simp [installs, Option.any_eq_true]

theorem commitRefresh_of_installs (installed : state.installs key generation)
    (result : Except CatalogError Catalog) :
    state.commitRefresh key generation result now = (state.install now result, true) := by
  rw [commitRefresh, if_pos installed]

theorem commitRefresh_of_not_installs (stale : ¬ state.installs key generation)
    (result : Except CatalogError Catalog) :
    state.commitRefresh key generation result now = (state, false) := by
  rw [commitRefresh, if_neg stale]

theorem abandonRefresh_of_not_installs (stale : ¬ state.installs key generation) :
    state.abandonRefresh key generation = state := by
  rw [abandonRefresh, if_neg stale]

section

variable (result : Except CatalogError Catalog)

@[simp] theorem install_activeKey : (state.install now result).activeKey = state.activeKey := by
  cases result with
  | ok => rfl
  | error =>
    rw [install]
    split <;> rfl

@[simp] theorem install_refresh : (state.install now result).refresh = none := by
  cases result with
  | ok => rfl
  | error =>
    rw [install]
    split <;> rfl

@[simp] theorem install_nextGeneration :
    (state.install now result).nextGeneration = state.nextGeneration := by
  cases result with
  | ok => rfl
  | error =>
    rw [install]
    split <;> rfl

end

theorem install_error (now : Nat) (error : CatalogError) :
    (state.install now (.error error)).catalog = state.catalog ∧
      (state.install now (.error error)).fetchedAt = state.fetchedAt := by
  rw [install]
  split <;> exact ⟨rfl, rfl⟩

theorem abandonRefresh_cases (state : OpenAiModelCatalogCacheState Catalog)
    (key : OpenAiCatalogKey) (generation : Nat) :
    state.abandonRefresh key generation = state ∨
      state.abandonRefresh key generation = { state with refresh := none } := by
  rw [abandonRefresh]
  split
  · exact .inr rfl
  · exact .inl rfl

end OpenAiModelCatalogCacheState

end PiRelay.AgentProvider
