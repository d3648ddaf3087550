import PiRelay.AgentProvider.CatalogCache
import PiRelay.Library.History
import PiRelay.Library.Machine

/-! The providers that share a catalog cache. A provider that is told to start a refresh
spawns a task for it, which outlives the caller. The task retrieves the catalog of its key,
commits the result and publishes it to all who wait. -/
namespace PiRelay.AgentProvider

open OpenAiModelCatalogCacheState List Option

open Library (Machine)
open Library.History (Since Sound)

variable {Catalog : Type}

def superseded : CatalogError where
  status := none
  message := "Codex model catalog refresh was superseded by an account identity change"

/-- How far the task of a refresh is. A task that dies closes its channel. -/
inductive RefreshStage (Catalog : Type) where
  | retrieving
  | retrieved (result : Except CatalogError Catalog)
  | committed (published : Except CatalogError Catalog)
  | finished (published : Except CatalogError Catalog)
  | dead

/-- The result that a task carries. -/
def RefreshStage.result : RefreshStage Catalog → Option (Except CatalogError Catalog)
  | .retrieved result | .committed result | .finished result => some result
  | .retrieving | .dead => none

/-- A task, with the channel that it alone sends to. Its place in the list of all tasks is
what a receiver of the channel holds. -/
structure RefreshTask (Catalog : Type) where
  key : OpenAiCatalogKey
  generation : Nat
  stage : RefreshStage Catalog := .retrieving

/-- A caller that waits for a refresh, with the key of its provider. -/
structure CatalogWaiter where
  key : OpenAiCatalogKey
  refresh : CatalogRefresh

inductive CatalogEvent (Catalog : Type) where
  | returned (key : OpenAiCatalogKey) (result : Except CatalogError Catalog) (now : Nat)
  | waited (key : OpenAiCatalogKey) (generation : Nat)
  | started (key : OpenAiCatalogKey) (generation : Nat)
  | retrieved (key : OpenAiCatalogKey) (result : Except CatalogError Catalog)
  | committed (key : OpenAiCatalogKey) (generation : Nat) (result : Except CatalogError Catalog)
      (now : Nat)
  | superseded (key : OpenAiCatalogKey) (generation : Nat)
  | given (key : OpenAiCatalogKey) (result : Except CatalogError Catalog)
  | abandoned (key : OpenAiCatalogKey) (generation : Nat)
deriving DecidableEq

structure CatalogEntry (Catalog : Type) where
  event : CatalogEvent Catalog
  activeKey : Option OpenAiCatalogKey

structure CatalogProviders (Catalog : Type) where
  cache : OpenAiModelCatalogCacheState Catalog := {}
  tasks : List (RefreshTask Catalog) := []
  waiting : List CatalogWaiter := []
  clock : Nat := 0
  history : List (CatalogEntry Catalog) := []

inductive CatalogLabel (Catalog : Type) where
  | decide (key : OpenAiCatalogKey) (now : Nat)
  | retrieve (task : Nat) (result : Except CatalogError Catalog)
  | commit (task : Nat) (now : Nat)
  | publish (task : Nat)
  | die (task : Nat)
  | receive (waiter : Nat)
  | abandon (waiter : Nat)
  | cancel (waiter : Nat)

namespace CatalogProviders

variable (state : CatalogProviders Catalog)

def note (event : CatalogEvent Catalog) : CatalogProviders Catalog :=
  { state with history := { event, activeKey := state.cache.activeKey } :: state.history }

def setStage (index : Nat) (stage : RefreshStage Catalog) : CatalogProviders Catalog :=
  { state with tasks := state.tasks.modify index fun task => { task with stage } }

def stopWaiting (index : Nat) : CatalogProviders Catalog :=
  { state with waiting := state.waiting.eraseIdx index }

variable (key : OpenAiCatalogKey)

def wait (refresh : CatalogRefresh) : CatalogProviders Catalog :=
  { state with waiting := state.waiting ++ [{ key, refresh }] }

/-- `spawn_catalog_refresh`, for a refresh whose channel is the next one. -/
def spawn (refresh : CatalogRefresh) : CatalogProviders Catalog :=
  { state with
    tasks := state.tasks ++ [{ key := refresh.key, generation := refresh.generation }] }

/-- `resolved_catalog`, up to the point where it returns or waits. -/
def resolve (now : Nat) : CatalogProviders Catalog :=
  let (cache, decided) := state.cache.decision key now state.tasks.length
  let state := { state with cache, clock := now }
  match decided with
  | .return result => state.note (.returned key result now)
  | .wait refresh => (state.wait key refresh).note (.waited key refresh.generation)
  | .start refresh =>
    ((state.spawn refresh).wait key refresh).note (.started key refresh.generation)

def commit (index : Nat) (task : RefreshTask Catalog)
    (result : Except CatalogError Catalog) (now : Nat) : CatalogProviders Catalog :=
  let (cache, committed) := state.cache.commitRefresh task.key task.generation result now
  let state := { state with cache, clock := now }
  if committed then
    (state.setStage index (.committed result)).note
      (.committed task.key task.generation result now)
  else
    (state.setStage index (.committed (.error superseded))).note
      (.superseded task.key task.generation)

/-- What a receiver of the channel finds: the task behind it. -/
def sender (waiter : CatalogWaiter) : Option (RefreshStage Catalog) :=
  state.tasks[waiter.refresh.receiver]?.map (·.stage)

/-- A channel is closed without a result. Only this refresh is abandoned, and the caller
decides again. -/
def abandon (index : Nat) (waiter : CatalogWaiter) : CatalogProviders Catalog :=
  let cache := state.cache.abandonRefresh waiter.key waiter.refresh.generation
  ({ state with cache }.stopWaiting index).note
    (.abandoned waiter.key waiter.refresh.generation)

def step : CatalogLabel Catalog → Option (CatalogProviders Catalog)
  | .decide key now => if state.clock ≤ now then some (state.resolve key now) else none
  | .retrieve index result => state.tasks[index]?.bind fun task =>
    match task.stage with
    | .retrieving =>
      some ((state.setStage index (.retrieved result)).note (.retrieved task.key result))
    | _ => none
  | .commit index now => state.tasks[index]?.bind fun task =>
    match task.stage with
    | .retrieved result =>
      if state.clock ≤ now then some (state.commit index task result now) else none
    | _ => none
  | .publish index => state.tasks[index]?.bind fun task =>
    match task.stage with
    | .committed published => some (state.setStage index (.finished published))
    | _ => none
  | .die index => state.tasks[index]?.bind fun task =>
    match task.stage with
    | .finished _ => none
    | _ => some (state.setStage index .dead)
  | .receive index => state.waiting[index]?.bind fun waiter =>
    match state.sender waiter with
    | some (.finished published) =>
      some ((state.stopWaiting index).note (.given waiter.key published))
    | _ => none
  | .abandon index => state.waiting[index]?.bind fun waiter =>
    match state.sender waiter with
    | some .dead => some (state.abandon index waiter)
    | _ => none
  -- The caller is dropped. The task goes on.
  | .cancel index => if index < state.waiting.length then some (state.stopWaiting index) else none

/-- A fresh cache and no callers. -/
def machine : Machine (CatalogProviders Catalog) (CatalogLabel Catalog) := .ofSteps (· = {}) step

/-- The generations of the refreshes started, the last one first. -/
def starts (history : List (CatalogEntry Catalog)) : List Nat :=
  history.filterMap fun entry =>
    match entry.event with
    | .started _ generation => some generation
    | _ => none

/-- A catalog was retrieved for the key. -/
def Retrieved (history : List (CatalogEntry Catalog)) (key : OpenAiCatalogKey)
    (catalog : Catalog) : Prop :=
  ∃ entry ∈ history, entry.event = .retrieved key (.ok catalog)

/-- The entry commits the catalog at the time, and the catalog was retrieved for the key. -/
def Commits (catalog : Catalog) (fetchedAt : Nat)
    (past : List (CatalogEntry Catalog)) (entry : CatalogEntry Catalog) : Prop :=
  (∃ generation, entry.event = .committed key generation (.ok catalog) fetchedAt) ∧
    Retrieved past key catalog

/-- The entry leaves the key active, and commits no catalog. -/
def Keeps (entry : CatalogEntry Catalog) : Prop :=
  entry.activeKey = some key ∧
    ∀ other generation catalog now, entry.event ≠ .committed other generation (.ok catalog) now

/-- The catalog was committed for the key at the time, and since then neither another key
was active nor another catalog committed. -/
def Current (catalog : Catalog) (fetchedAt : Nat) : List (CatalogEntry Catalog) → Prop :=
  Since (Keeps key) (Commits key catalog fetchedAt)

/-- A catalog is returned while it is current and its time to live lasts. One that is given
was retrieved for the same key. A generation that starts is greater than all before it. -/
def Justified (past : List (CatalogEntry Catalog)) (entry : CatalogEntry Catalog) : Prop :=
  match entry.event with
  | .returned key (.ok catalog) now =>
    ∃ fetchedAt ≤ now, now < fetchedAt + codexModelsSuccessTtl ∧
      Current key catalog fetchedAt past
  | .given key (.ok catalog) => Retrieved past key catalog
  | .started _ generation =>
    ∀ earlier ∈ starts past, earlier < generation ∨
      earlier = u64Max ∧ generation = u64Max
  | _ => True

/-- The channel of a refresh belongs to a task of the key. -/
def Linked (refresh : CatalogRefresh) : Prop :=
  state.tasks[refresh.receiver]?.map (·.key) = some key

structure Consistent (state : CatalogProviders Catalog) : Prop where
  installed : ∀ refresh, state.cache.refresh = some refresh →
    state.cache.activeKey = some refresh.key ∧ state.Linked refresh.key refresh
  latest : ∀ refresh, state.cache.refresh = some refresh →
    refresh.generation = state.cache.nextGeneration
  linked : ∀ waiter ∈ state.waiting, state.Linked waiter.key waiter.refresh
  retrieved : ∀ task ∈ state.tasks, ∀ catalog, task.stage.result = some (.ok catalog) →
    Retrieved state.history task.key catalog
  current : ∀ catalog fetchedAt, state.cache.catalog = some catalog →
    state.cache.fetchedAt = some fetchedAt → fetchedAt ≤ state.clock ∧
      ∃ key, state.cache.activeKey = some key ∧ Current key catalog fetchedAt state.history
  counted : ∀ generation ∈ starts state.history, generation ≤ state.cache.nextGeneration
  limited : state.cache.nextGeneration ≤ u64Max
  sound : Sound Justified state.history

variable {state after : CatalogProviders Catalog} {event : CatalogEvent Catalog}
  {key : OpenAiCatalogKey} {catalog : Catalog} {index now : Nat}

theorem Retrieved.cons {history : List (CatalogEntry Catalog)}
    (retrieved : Retrieved history key catalog) (entry : CatalogEntry Catalog) :
    Retrieved (entry :: history) key catalog := by
  obtain ⟨found, mem, isRetrieved⟩ := retrieved
  exact ⟨found, .tail _ mem, isRetrieved⟩

/-- The event commits no catalog. -/
def Quiet (event : CatalogEvent Catalog) : Prop :=
  ∀ key generation catalog now, event ≠ .committed key generation (.ok catalog) now

/-- A generation that starts is the last one. -/
def CountedBy (state : CatalogProviders Catalog) (event : CatalogEvent Catalog) : Prop :=
  ∀ key generation, event = .started key generation → generation ≤ state.cache.nextGeneration

theorem counted_note (counted : ∀ generation ∈ starts state.history,
      generation ≤ state.cache.nextGeneration) (counts : state.CountedBy event) :
    ∀ generation ∈ starts (state.note event).history,
      generation ≤ (state.note event).cache.nextGeneration := by
  intro generation mem
  obtain ⟨entry, among, starts⟩ := mem_filterMap.mp mem
  rcases mem_cons.mp among with rfl | old
  · split at starts
    · rename_i hEvent
      cases starts
      exact counts _ _ hEvent
    · cases starts
  · exact counted generation (mem_filterMap.mpr ⟨entry, old, starts⟩)

theorem Consistent.note (consistent : state.Consistent) (quiet : Quiet event)
    (counts : state.CountedBy event)
    (justified : Justified state.history { event, activeKey := state.cache.activeKey }) :
    (state.note event).Consistent :=
  { consistent with
    retrieved task mem catalog holds := (consistent.retrieved task mem catalog holds).cons _
    current catalog fetchedAt hCatalog hFetchedAt := by
      obtain ⟨past, key, active, isCurrent⟩ :=
        consistent.current catalog fetchedAt hCatalog hFetchedAt
      exact ⟨past, key, active, isCurrent.next ⟨active, quiet⟩⟩
    counted := counted_note consistent.counted counts
    sound := ⟨justified, consistent.sound⟩ }

variable {refresh : CatalogRefresh}

theorem linked_setStage {stage : RefreshStage Catalog} :
    (state.setStage index stage).Linked key refresh ↔ state.Linked key refresh := by
  rw [Linked, Linked, setStage, getElem?_modify]
  cases state.tasks[refresh.receiver]? with
  | none => simp
  | some => by_cases same : index = refresh.receiver <;> simp [same]

section

variable (consistent : state.Consistent)
include consistent

theorem Consistent.setStage {task : RefreshTask Catalog} {stage : RefreshStage Catalog}
    (found : state.tasks[index]? = some task)
    (holds : ∀ catalog, stage.result = some (.ok catalog) →
      Retrieved state.history task.key catalog) : (state.setStage index stage).Consistent :=
  { consistent with
    installed refresh isInstalled := by
      obtain ⟨active, isLinked⟩ := consistent.installed refresh isInstalled
      exact ⟨active, linked_setStage.mpr isLinked⟩
    linked waiter mem := linked_setStage.mpr (consistent.linked waiter mem)
    retrieved each mem catalog hResult := by
      obtain ⟨position, isThere⟩ := mem_iff_getElem?.mp mem
      rw [CatalogProviders.setStage, getElem?_modify] at isThere
      obtain ⟨_, hBefore, hEach⟩ := map_eq_some_iff.mp isThere
      by_cases same : index = position
      · subst same
        cases found.symm.trans hBefore
        rw [if_pos rfl] at hEach
        subst hEach
        exact holds catalog hResult
      · rw [if_neg same] at hEach
        subst hEach
        exact consistent.retrieved _ (mem_of_getElem? hBefore) catalog hResult }

theorem Consistent.stopWaiting (index : Nat) : (state.stopWaiting index).Consistent :=
  { consistent with
    linked waiter mem := consistent.linked waiter (mem_of_mem_eraseIdx mem) }

theorem Consistent.wait (isLinked : state.Linked key refresh) :
    (state.wait key refresh).Consistent :=
  { consistent with
    linked waiter mem := by
      rcases Library.mem_concat.mp mem with old | rfl
      · exact consistent.linked waiter old
      · exact isLinked }

/-- The clock goes on, and the slot is emptied when the key is another one. -/
theorem Consistent.activate (later : state.clock ≤ now) (key : OpenAiCatalogKey) :
    ({ state with cache := state.cache.activate key, clock := now } :
      CatalogProviders Catalog).Consistent := by
  have next := state.cache.activate_nextGeneration key
  refine ⟨?_, ?_, consistent.linked, consistent.retrieved, ?_, ?_, ?_, consistent.sound⟩
  · intro refresh isInstalled
    rcases state.cache.activate_cases key with ⟨same, kept⟩ | emptied
    · rw [kept] at isInstalled ⊢
      exact consistent.installed refresh isInstalled
    · rw [emptied] at isInstalled
      cases isInstalled
  · intro refresh isInstalled
    rcases state.cache.activate_cases key with ⟨same, kept⟩ | emptied
    · rw [kept] at isInstalled ⊢
      exact consistent.latest refresh isInstalled
    · rw [emptied] at isInstalled
      cases isInstalled
  · intro catalog fetchedAt hCatalog hFetchedAt
    rcases state.cache.activate_cases key with ⟨same, kept⟩ | emptied
    · rw [kept] at hCatalog hFetchedAt ⊢
      obtain ⟨past, isCurrent⟩ := consistent.current catalog fetchedAt hCatalog hFetchedAt
      exact ⟨Nat.le_trans past later, isCurrent⟩
    · rw [emptied] at hCatalog
      cases hCatalog
  · rw [next]
    exact consistent.counted
  · rw [next]
    exact consistent.limited

end

theorem Linked.spawn (linked : state.Linked key refresh) (started : CatalogRefresh) :
    (state.spawn started).Linked key refresh := by
  obtain ⟨_, found, hKey⟩ := map_eq_some_iff.mp linked
  have inside := (List.getElem?_eq_some_iff.mp found).1
  rw [Linked, CatalogProviders.spawn, getElem?_append_left inside, found, ← hKey]
  rfl

theorem linked_spawn (next : refresh.receiver = state.tasks.length) :
    (state.spawn refresh).Linked refresh.key refresh := by
  simp [Linked, CatalogProviders.spawn, next]

section

variable (consistent : state.Consistent)
include consistent

theorem Consistent.start (refresh : CatalogRefresh)
    (active : state.cache.activeKey = some refresh.key)
    (generation : refresh.generation = saturatingSucc state.cache.nextGeneration)
    (next : refresh.receiver = state.tasks.length) :
    ({ state with cache := state.cache.startRefresh refresh }.spawn refresh).Consistent where
  installed each isInstalled := by
    cases isInstalled
    exact ⟨active, linked_spawn next⟩
  latest each isInstalled := by
    cases isInstalled
    rfl
  linked waiter mem := (consistent.linked waiter mem).spawn refresh
  retrieved task mem catalog hResult := by
    rcases Library.mem_concat.mp mem with old | rfl
    · exact consistent.retrieved task old catalog hResult
    · cases hResult
  current := consistent.current
  counted earlier mem := by
    have counted := consistent.counted earlier mem
    have limited := consistent.limited
    change earlier ≤ refresh.generation
    rw [generation, saturatingSucc]
    omega
  limited := by
    change refresh.generation ≤ u64Max
    rw [generation, saturatingSucc]
    exact Nat.min_le_right _ _
  sound := consistent.sound

section

variable (later : state.clock ≤ now)
include later

theorem Consistent.resolve (key : OpenAiCatalogKey) : (state.resolve key now).Consistent := by
  have active := consistent.activate later key
  have decides := state.cache.decision_decides key now state.tasks.length
  rw [CatalogProviders.resolve]
  generalize state.cache.decision key now state.tasks.length = decided at decides
  cases decides with
  | @fresh catalog fresh =>
    obtain ⟨fetchedAt, hCatalog, hFetchedAt, young⟩ := freshCatalog_eq_some fresh
    obtain ⟨past, other, isActive, isCurrent⟩ :=
      active.current catalog fetchedAt hCatalog hFetchedAt
    cases (state.cache.activate_activeKey key).symm.trans isActive
    have lives : now < fetchedAt + codexModelsSuccessTtl := by omega
    exact active.note nofun nofun ⟨fetchedAt, past, lives, isCurrent⟩
  | failed => exact active.note nofun nofun trivial
  | @wait refresh installed =>
    obtain ⟨isActive, isLinked⟩ := active.installed refresh installed
    cases (state.cache.activate_activeKey key).symm.trans isActive
    exact (active.wait isLinked).note nofun nofun trivial
  | @start refresh vacant isNew =>
    subst isNew
    have next := state.cache.activate_nextGeneration key
    have started := active.start
      ⟨key, saturatingSucc state.cache.nextGeneration, state.tasks.length⟩
      (state.cache.activate_activeKey key) (congrArg saturatingSucc next.symm) rfl
    have waits := started.wait (linked_spawn rfl)
    refine waits.note nofun ?_ ?_
    · rintro _ _ ⟨⟩
      exact Nat.le_refl _
    · intro earlier mem
      have counted := consistent.counted earlier mem
      have limited := consistent.limited
      simp only [saturatingSucc]
      omega

theorem Consistent.tick : ({ state with clock := now } : CatalogProviders Catalog).Consistent :=
  { consistent with
    current catalog fetchedAt hCatalog hFetchedAt := by
      obtain ⟨past, isCurrent⟩ := consistent.current catalog fetchedAt hCatalog hFetchedAt
      exact ⟨Nat.le_trans past later, isCurrent⟩ }

theorem Consistent.install {generation : Nat} {result : Except CatalogError Catalog}
    (active : state.cache.activeKey = some key)
    (holds : ∀ catalog, result = .ok catalog → Retrieved state.history key catalog) :
    (({ state with cache := state.cache.install now result, clock := now } :
      CatalogProviders Catalog).note (.committed key generation result now)).Consistent where
  installed refresh isInstalled := by
    change (state.cache.install now result).refresh = some refresh at isInstalled
    rw [install_refresh] at isInstalled
    cases isInstalled
  latest refresh isInstalled := by
    change (state.cache.install now result).refresh = some refresh at isInstalled
    rw [install_refresh] at isInstalled
    cases isInstalled
  linked := consistent.linked
  retrieved task mem catalog hResult := (consistent.retrieved task mem catalog hResult).cons _
  current catalog fetchedAt hCatalog hFetchedAt := by
    cases result with
    | ok =>
      cases hCatalog
      cases hFetchedAt
      exact ⟨Nat.le_refl _, key, active, .of_marks ⟨⟨generation, rfl⟩, holds _ rfl⟩⟩
    | error error =>
      obtain ⟨sameCatalog, sameDate⟩ := state.cache.install_error now error
      obtain ⟨past, other, isActive, isCurrent⟩ := consistent.current catalog fetchedAt
        (sameCatalog.symm.trans hCatalog) (sameDate.symm.trans hFetchedAt)
      have stays : (state.cache.install now (.error error)).activeKey = some other := by
        rw [install_activeKey, isActive]
      exact ⟨Nat.le_trans past later, other, stays, isCurrent.next ⟨stays, nofun⟩⟩
  counted := by
    refine counted_note ?_ nofun
    simpa using consistent.counted
  limited := by
    change (state.cache.install now result).nextGeneration ≤ u64Max
    rw [install_nextGeneration]
    exact consistent.limited
  sound := ⟨trivial, consistent.sound⟩

end

theorem Consistent.commit {task : RefreshTask Catalog} {result : Except CatalogError Catalog}
    (found : state.tasks[index]? = some task) (hStage : task.stage = .retrieved result)
    (later : state.clock ≤ now) : (state.commit index task result now).Consistent := by
  have retrieved : ∀ catalog, result = .ok catalog → Retrieved state.history task.key catalog := by
    rintro catalog rfl
    refine consistent.retrieved task (mem_of_getElem? found) catalog ?_
    rw [hStage, RefreshStage.result]
  rw [CatalogProviders.commit]
  by_cases installed : state.cache.installs task.key task.generation
  · rw [commitRefresh_of_installs installed]
    have active := (installs_iff.mp installed).1
    have published : (state.setStage index (.committed result)).Consistent :=
      consistent.setStage found fun catalog hResult => retrieved catalog (Option.some.inj hResult)
    exact published.install later active retrieved
  · rw [commitRefresh_of_not_installs installed]
    have published : (state.setStage index (.committed (.error superseded))).Consistent :=
      consistent.setStage found nofun
    exact (published.tick later).note nofun nofun trivial

theorem Consistent.dropRefresh :
    ({ state with cache := { state.cache with refresh := none } } :
      CatalogProviders Catalog).Consistent :=
  { consistent with
    installed := nofun
    latest := nofun }

theorem Consistent.abandon (index : Nat) (waiter : CatalogWaiter) :
    (state.abandon index waiter).Consistent := by
  rw [CatalogProviders.abandon]
  rcases state.cache.abandonRefresh_cases waiter.key waiter.refresh.generation with kept | dropped
  · rw [kept]
    exact (consistent.stopWaiting index).note nofun nofun trivial
  · rw [dropped]
    exact (consistent.dropRefresh.stopWaiting index).note nofun nofun trivial

theorem Consistent.receive {waiter : CatalogWaiter} {published : Except CatalogError Catalog}
    (found : state.waiting[index]? = some waiter)
    (finished : state.sender waiter = some (.finished published)) :
    ((state.stopWaiting index).note (.given waiter.key published)).Consistent := by
  refine (consistent.stopWaiting index).note nofun nofun ?_
  cases published with
  | error => trivial
  | ok catalog =>
    obtain ⟨task, isTask, hStage⟩ := map_eq_some_iff.mp finished
    have isLinked := consistent.linked waiter (mem_of_getElem? found)
    rw [Linked, isTask] at isLinked
    have sameKey : task.key = waiter.key := Option.some.inj isLinked
    have holds := consistent.retrieved task (mem_of_getElem? isTask) catalog
      (by rw [hStage, RefreshStage.result])
    rw [sameKey] at holds
    exact holds

/-- A step keeps catalog, key and refreshes consistent. -/
theorem Consistent.step {label : CatalogLabel Catalog} (stepped : state.step label = some after) :
    after.Consistent := by
  cases label with
  | decide key =>
    rw [CatalogProviders.step] at stepped
    split at stepped
    · rename_i later
      cases stepped
      exact consistent.resolve later key
    · cases stepped
  | retrieve _ result =>
    obtain ⟨task, found, acts⟩ := bind_eq_some_iff.mp stepped
    split at acts
    · cases acts
      have noted : (state.note (.retrieved task.key result)).Consistent :=
        consistent.note nofun nofun trivial
      refine noted.setStage found fun catalog hResult => ?_
      cases hResult
      exact ⟨_, .head _, rfl⟩
    · cases acts
  | commit =>
    obtain ⟨task, found, acts⟩ := bind_eq_some_iff.mp stepped
    split at acts
    · rename_i result hStage
      split at acts
      · rename_i later
        cases acts
        exact consistent.commit found hStage later
      · cases acts
    · cases acts
  | publish =>
    obtain ⟨task, found, acts⟩ := bind_eq_some_iff.mp stepped
    split at acts
    · rename_i published hStage
      cases acts
      refine consistent.setStage found fun catalog hResult => ?_
      refine consistent.retrieved task (mem_of_getElem? found) catalog ?_
      rw [hStage]
      exact hResult
    · cases acts
  | die =>
    obtain ⟨task, found, acts⟩ := bind_eq_some_iff.mp stepped
    split at acts
    · cases acts
    · cases acts
      exact consistent.setStage found nofun
  | receive =>
    obtain ⟨waiter, found, acts⟩ := bind_eq_some_iff.mp stepped
    split at acts
    · rename_i published finished
      cases acts
      exact consistent.receive found finished
    · cases acts
  | abandon index =>
    obtain ⟨waiter, found, acts⟩ := bind_eq_some_iff.mp stepped
    split at acts
    · cases acts
      exact consistent.abandon index waiter
    · cases acts
  | cancel index =>
    rw [CatalogProviders.step] at stepped
    split at stepped
    · cases stepped
      exact consistent.stopWaiting index
    · cases stepped

end

theorem consistent_of_reaches (reaches : machine.Reaches state) : state.Consistent := by
  refine reaches.invariant ?_ fun _ _ _ _ consistent stepped => consistent.step stepped
  rintro _ rfl
  exact ⟨nofun, nofun, nofun, nofun, nofun, nofun, Nat.zero_le _, trivial⟩

theorem starts_ordered {history : List (CatalogEntry Catalog)} (sound : Sound Justified history) :
    (starts history).Pairwise fun later earlier =>
      earlier < later ∨ earlier = u64Max ∧ later = u64Max := by
  induction history with
  | nil => exact .nil
  | cons _ _ ih =>
    obtain ⟨justified, soundPast⟩ := sound
    rw [starts, filterMap_cons]
    split
    · exact ih soundPast
    · rename_i generation started
      refine .cons ?_ (ih soundPast)
      split at started
      · rename_i hEvent
        cases started
        rw [Justified, hEvent] at justified
        exact justified
      · cases started

structure Guarantees (state : CatalogProviders Catalog) : Prop where
  /-- One generation is installed, and no refresh has started after it. -/
  oneInstalled : ∀ key generation, state.cache.installs key generation = true →
    (∀ other another, state.cache.installs other another = true →
      other = key ∧ another = generation) ∧
    ∀ started ∈ starts state.history, started ≤ generation
  /-- Later refreshes have greater generations, up to the greatest one. -/
  ordered : (starts state.history).Pairwise fun later earlier =>
    earlier < later ∨ earlier = u64Max ∧ later = u64Max
  /-- A refresh that is not installed changes nothing. -/
  stale : ∀ key generation, ¬ state.cache.installs key generation = true →
    (∀ result now, state.cache.commitRefresh key generation result now = (state.cache, false)) ∧
      state.cache.abandonRefresh key generation = state.cache
  /-- A catalog is returned for the key it was retrieved for, while it is current. -/
  returned : ∀ later past key catalog now active,
    state.history = later ++ ⟨.returned key (.ok catalog) now, active⟩ :: past →
      ∃ fetchedAt ≤ now, now < fetchedAt + codexModelsSuccessTtl ∧
        Current key catalog fetchedAt past
  /-- So is one that is published. -/
  given : ∀ later past key catalog active,
    state.history = later ++ ⟨.given key (.ok catalog), active⟩ :: past →
      Retrieved past key catalog
  /-- After a failure, and before the next catalog is committed, what is returned was
  committed before the failure and still lives. -/
  afterFailure : ∀ later between past key catalog now active,
    ∀ other generation error failedAt another,
    state.history = later ++ ⟨.returned key (.ok catalog) now, active⟩ ::
      (between ++ ⟨.committed other generation (.error error) failedAt, another⟩ :: past) →
    (∀ entry ∈ between, Quiet entry.event) →
      ∃ fetchedAt ≤ now, now < fetchedAt + codexModelsSuccessTtl ∧
        Current key catalog fetchedAt past

theorem catalog_guarantees_of_reaches (reaches : machine.Reaches state) : state.Guarantees where
  oneInstalled key generation installed := by
    have consistent := consistent_of_reaches reaches
    obtain ⟨active, refresh, isInstalled, rfl, rfl⟩ := installs_iff.mp installed
    constructor
    · intro other another also
      obtain ⟨-, _, isEach, rfl, rfl⟩ := installs_iff.mp also
      cases isInstalled.symm.trans isEach
      exact ⟨rfl, rfl⟩
    · intro started mem
      rw [consistent.latest refresh isInstalled]
      exact consistent.counted started mem
  ordered := starts_ordered (consistent_of_reaches reaches).sound
  stale key generation stale := ⟨fun result _ => commitRefresh_of_not_installs stale result,
      abandonRefresh_of_not_installs stale⟩
  returned later past key catalog now active happened := by
    have sound := (consistent_of_reaches reaches).sound
    rw [happened] at sound
    exact sound.justified_at
  given later past key catalog active happened := by
    have sound := (consistent_of_reaches reaches).sound
    rw [happened] at sound
    exact sound.justified_at
  afterFailure later between past key catalog now active other generation error failedAt another
      happened quiet := by
    have sound := (consistent_of_reaches reaches).sound
    rw [happened] at sound
    obtain ⟨fetchedAt, before, lives, isCurrent⟩ := sound.justified_at
    have unmarked : ∀ past, ∀ entry ∈ between ++
        [⟨.committed other generation (.error error) failedAt, another⟩],
        ¬ Commits key catalog fetchedAt past entry := by
      rintro past entry mem ⟨⟨generation, commits⟩, -⟩
      rcases Library.mem_concat.mp mem with early | rfl
      · exact quiet entry early _ _ _ _ commits
      · cases commits
    rw [append_cons] at isCurrent
    exact ⟨fetchedAt, before, lives, isCurrent.before unmarked⟩

def sampleKey : OpenAiCatalogKey where
  baseUrl := "https://chatgpt.com/backend-api/codex"
  identity := .account "account"

/-- A catalog that a refresh committed is returned to the next caller. -/
theorem catalog_guarantees_of_reaches_returned : ∃ state : CatalogProviders Nat,
    state.history.head?.map (·.event) = some (.returned sampleKey (.ok 7) 3) ∧
      state.Guarantees := by
  let script : List (CatalogLabel Nat) :=
    [.decide sampleKey 0, .retrieve 0 (.ok 7), .commit 0 2, .publish 0, .receive 0,
      .decide sampleKey 3]
  obtain ⟨state, isRun, isReturned⟩ : ∃ state, script.foldlM step {} = some state ∧
      state.history.head?.map (·.event) = some (.returned sampleKey (.ok 7) 3) :=
    ⟨_, rfl, by decide⟩
  exact ⟨state, isReturned, catalog_guarantees_of_reaches (.run (.start rfl) isRun)⟩

def idle (activeKey : Option OpenAiCatalogKey) (nextGeneration : Nat)
    (tasks : List (RefreshTask Unit)) (history : List (CatalogEntry Unit)) :
    CatalogProviders Unit where
  cache := { activeKey, nextGeneration }
  tasks := tasks
  history := history

def refreshing (generation : Nat) (tasks : List (RefreshTask Unit))
    (history : List (CatalogEntry Unit)) (stage : RefreshStage Unit) : CatalogProviders Unit :=
  let refresh := { key := sampleKey, generation, receiver := tasks.length }
  { cache :=
      { activeKey := some sampleKey, refresh := some refresh, nextGeneration := generation }
    tasks := tasks ++ [{ key := sampleKey, generation, stage }]
    waiting := [{ key := sampleKey, refresh }]
    history := { event := .started sampleKey generation, activeKey := some sampleKey } :: history }

theorem step_decide_idle (activeKey : Option OpenAiCatalogKey) (generation : Nat)
    (tasks : List (RefreshTask Unit)) (history : List (CatalogEntry Unit)) :
    (idle activeKey generation tasks history).step (.decide sampleKey 0) =
      some (refreshing (saturatingSucc generation) tasks history .retrieving) := by
  have activated : (idle activeKey generation tasks history).cache.activate sampleKey =
      { activeKey := some sampleKey, nextGeneration := generation } := by
    rcases (idle activeKey generation tasks history).cache.activate_cases sampleKey with
      ⟨same, kept⟩ | emptied
    · rw [kept]
      simpa [idle] using same
    · exact emptied
  simp [step, resolve, decision, activated, freshCatalog, recentFailure]
  exact ⟨rfl, rfl⟩

theorem step_die_refreshing (generation : Nat) (tasks : List (RefreshTask Unit))
    (history : List (CatalogEntry Unit)) :
    (refreshing generation tasks history .retrieving).step (.die tasks.length) =
      some (refreshing generation tasks history .dead) := by
  simp [step, refreshing, setStage, modify_eq_take_drop]

theorem step_abandon_refreshing (generation : Nat) (tasks : List (RefreshTask Unit))
    (history : List (CatalogEntry Unit)) :
    (refreshing generation tasks history .dead).step (.abandon 0) =
      some (idle (some sampleKey) generation
        (tasks ++ [{ key := sampleKey, generation, stage := .dead }])
        ({ event := .abandoned sampleKey generation, activeKey := some sampleKey } ::
          { event := .started sampleKey generation, activeKey := some sampleKey } ::
          history)) := by
  simp [step, refreshing, sender, abandon, abandonRefresh, installs, stopWaiting, note, idle]

theorem reaches_restart {activeKey : Option OpenAiCatalogKey} {generation : Nat}
    {tasks : List (RefreshTask Unit)} {history : List (CatalogEntry Unit)}
    (reaches : machine.Reaches (idle activeKey generation tasks history)) :
    ∃ tasks' history',
      machine.Reaches (idle (some sampleKey) (saturatingSucc generation) tasks' history') ∧
      starts history' = saturatingSucc generation :: starts history := by
  have decided := Machine.Reaches.next reaches (step_decide_idle activeKey generation tasks history)
  have died := decided.next (step_die_refreshing _ tasks history)
  exact ⟨_, _, died.next (step_abandon_refreshing _ tasks history), rfl⟩

theorem reaches_idle (count : Nat) : ∃ tasks history,
    machine.Reaches (idle (some sampleKey) (min (count + 1) u64Max) tasks history) ∧
      (starts history).head? = some (min (count + 1) u64Max) := by
  induction count with
  | zero =>
    have start : machine.Reaches (idle none 0 [] []) := .start rfl
    obtain ⟨tasks, history, reaches, hStarts⟩ := reaches_restart start
    exact ⟨tasks, history, reaches, by rw [hStarts]; rfl⟩
  | succ count ih =>
    obtain ⟨tasks, history, reaches, -⟩ := ih
    obtain ⟨tasks', history', reaches', hStarts⟩ := reaches_restart reaches
    have next : saturatingSucc (min (count + 1) u64Max) =
        min (count + 1 + 1) u64Max := by
      rw [saturatingSucc]
      omega
    rw [next] at reaches' hStarts
    exact ⟨tasks', history', reaches', by rw [hStarts, head?_cons]⟩

/-- After the greatest generation, the next refresh has the same one. -/
theorem last_generation_repeats : ¬ ∀ state : CatalogProviders Unit, machine.Reaches state →
    (starts state.history).Pairwise fun later earlier => earlier < later := by
  intro increasing
  have positive : u64Max - 1 + 1 = u64Max := by decide
  obtain ⟨_, history, reaches, isHead⟩ := reaches_idle (u64Max - 1)
  rw [positive, Nat.min_self] at reaches isHead
  obtain ⟨_, history', reaches', hStarts⟩ := reaches_restart reaches
  have pairwise := increasing _ reaches'
  change (starts history').Pairwise _ at pairwise
  have repeats : saturatingSucc u64Max = u64Max := Nat.min_eq_right (Nat.le_succ _)
  rw [hStarts, repeats] at pairwise
  have mem : u64Max ∈ starts history := mem_of_head? isHead
  exact Nat.lt_irrefl _ (rel_of_pairwise_cons pairwise mem)

end CatalogProviders

end PiRelay.AgentProvider
