import PiRelay.Library.Eviction
import PiRelay.Library.Machine
import Mathlib.Algebra.Order.BigOperators.Group.List
import Mathlib.Algebra.Order.Ring.Nat

/-! The browser's cache of workspace files, with the downloads that fill it. An entry does not say
when its file was asked for. -/
namespace PiRelay.Web

open Library List Option

def fileCacheBudgetBytes : Nat := 8 * 1024 * 1024 * 1024

def fileCacheMaxUnpinned : Nat := 16

structure CachedWorkspaceFile where
  sessionId : String
  path : String
  bytes : List UInt8
  totalSize : Nat
  mtimeMs : Option Int
  /-- When its download began. The source does not keep it. -/
  startedAt : Nat

def cacheKey (sessionId path : String) : String := sessionId ++ "\x00" ++ path

structure CacheEntry where
  key : String
  file : CachedWorkspaceFile
  pinned : Bool
  lastUsed : Nat

structure WorkspaceFileCache where
  entries : List CacheEntry
  clock : Nat

namespace WorkspaceFileCache

def evictable : Evictable CacheEntry String where
  key := CacheEntry.key
  lastUse := CacheEntry.lastUsed
  settled entry := !entry.pinned

def overBudget (entries : List CacheEntry) : Bool :=
  let unpinned := entries.filter (!·.pinned)
  fileCacheBudgetBytes < (unpinned.map (·.file.bytes.length)).sum
    || fileCacheMaxUnpinned < unpinned.length

def evictLoop : Loop (List CacheEntry) where
  body entries :=
    match if overBudget entries then evictable.evictOldest entries else none with
    | some rest => (rest, true)
    | none => (entries, false)
  measure := List.length
  decreases entries again := by
    split at again
    · rename_i evicted
      split at evicted
      · have shorter := Evictable.length_of_evictOldest evicted
        simp only
        omega
      · cases evicted
    · cases again

variable (cache : WorkspaceFileCache)

def evict : WorkspaceFileCache := { cache with entries := evictLoop.run cache.entries }

def touch (key : String) (change : CacheEntry → CacheEntry) : WorkspaceFileCache :=
  if cache.entries.any (·.key == key) then
    { entries := cache.entries.map fun entry =>
        if entry.key = key then { change entry with lastUsed := cache.clock + 1 } else entry
      clock := cache.clock + 1 }
  else cache

def get (sessionId path : String) : Option CachedWorkspaceFile × WorkspaceFileCache :=
  let key := cacheKey sessionId path
  ((cache.entries.find? (·.key == key)).map (·.file), cache.touch key id)

def set (file : CachedWorkspaceFile) (pinned : Bool) : WorkspaceFileCache :=
  let key := cacheKey file.sessionId file.path
  let clock := cache.clock + 1
  let entry : CacheEntry := { key, file, pinned, lastUsed := clock }
  let entries :=
    if cache.entries.any (·.key == key) then
      cache.entries.map fun old => if old.key = key then entry else old
    else cache.entries ++ [entry]
  evict { entries, clock }

def pin (sessionId path : String) : WorkspaceFileCache :=
  cache.touch (cacheKey sessionId path) fun entry => { entry with pinned := true }

def unpin (sessionId path : String) : WorkspaceFileCache :=
  let key := cacheKey sessionId path
  if cache.entries.any (·.key == key) then
    (cache.touch key fun entry => { entry with pinned := false }).evict
  else cache

def invalidate (sessionId path : String) : WorkspaceFileCache :=
  { cache with entries := cache.entries.filter (·.key ≠ cacheKey sessionId path) }

end WorkspaceFileCache

structure Download where
  sessionId : String
  path : String
  startedAt : Nat

structure FileCacheState where
  cache : WorkspaceFileCache
  downloads : List Download
  now : Nat
  /-- When a key was last invalidated; zero is never. -/
  invalidatedAt : String → Nat

inductive FileCacheStep where
  | loadCachedWorkspaceFile (sessionId path : String)
  | downloaded (index : Nat) (bytes : List UInt8) (totalSize : Nat) (mtimeMs : Option Int)
  | failed (index : Nat)
  | unpin (sessionId path : String)
  | invalidateCachedWorkspaceFile (sessionId path : String)

namespace FileCacheState

variable (state : FileCacheState)

def load (sessionId path : String) : FileCacheState :=
  match state.cache.get sessionId path with
  | (some _, cache) => { state with cache := cache.pin sessionId path }
  | (none, cache) =>
    { state with cache, downloads := state.downloads ++ [⟨sessionId, path, state.now⟩] }

def perform : FileCacheStep → Option FileCacheState
  | .loadCachedWorkspaceFile sessionId path => some (state.load sessionId path)
  | .downloaded index bytes totalSize mtimeMs =>
    state.downloads[index]?.map fun download =>
      let file : CachedWorkspaceFile := { download with bytes, totalSize, mtimeMs }
      { state with
        cache := state.cache.set file true
        downloads := state.downloads.eraseIdx index }
  | .failed index =>
    state.downloads[index]?.map fun _ =>
      { state with downloads := state.downloads.eraseIdx index }
  | .unpin sessionId path => some { state with cache := state.cache.unpin sessionId path }
  | .invalidateCachedWorkspaceFile sessionId path =>
    some { state with
      cache := state.cache.invalidate sessionId path
      invalidatedAt := Function.update state.invalidatedAt (cacheKey sessionId path) state.now }

/-- Every step takes place after the one before it. -/
def step (step : FileCacheStep) : Option FileCacheState :=
  { state with now := state.now + 1 }.perform step

def initial : FileCacheState where
  cache := ⟨[], 0⟩
  downloads := []
  now := 0
  invalidatedAt _ := 0

def runs : Machine FileCacheState FileCacheStep := Machine.ofSteps (· = initial) step

/-- The download that ends began after the last invalidation of its file. -/
def EndsFresh : FileCacheStep → Prop
  | .downloaded index _ _ _ => ∀ download, state.downloads[index]? = some download →
      state.invalidatedAt (cacheKey download.sessionId download.path) < download.startedAt
  | _ => True

end FileCacheState

namespace WorkspaceFileCache

def All (good : String → CachedWorkspaceFile → Prop) (cache : WorkspaceFileCache) : Prop :=
  ∀ entry ∈ cache.entries, good entry.key entry.file

namespace All

variable {good : String → CachedWorkspaceFile → Prop} {cache : WorkspaceFileCache}

section

variable (all : cache.All good)
include all

theorem evict : cache.evict.All good := by
  refine evictLoop.run_invariant
    (motive := fun entries => ∀ entry ∈ entries, good entry.key entry.file) ?_ all
  intro entries good
  simp only [evictLoop]
  split
  · rename_i evicted
    split at evicted
    · obtain ⟨_, _, _, rfl⟩ := Evictable.evictOldest_eq_some evicted
      exact fun entry mem => good entry (mem_of_mem_eraseP mem)
    · cases evicted
  · exact good

theorem touch {key : String} {change : CacheEntry → CacheEntry}
    (same : ∀ entry, (change entry).key = entry.key ∧ (change entry).file = entry.file) :
    (cache.touch key change).All good := by
  rw [WorkspaceFileCache.touch]
  split
  · intro entry mem
    obtain ⟨old, isOld, rfl⟩ := mem_map.mp mem
    split
    · simpa [same old] using all old isOld
    · exact all old isOld
  · exact all

theorem set {file : CachedWorkspaceFile} {pinned : Bool}
    (isGood : good (cacheKey file.sessionId file.path) file) :
    (cache.set file pinned).All good := by
  refine evict fun entry mem => ?_
  simp only at mem
  split at mem
  · obtain ⟨old, isOld, rfl⟩ := mem_map.mp mem
    split
    · exact isGood
    · exact all old isOld
  · rcases Library.mem_concat.mp mem with isOld | rfl
    · exact all entry isOld
    · exact isGood

theorem unpin (sessionId path : String) : (cache.unpin sessionId path).All good := by
  rw [WorkspaceFileCache.unpin]
  split
  · apply evict
    exact all.touch fun _ => ⟨rfl, rfl⟩
  · exact all

end

end All

end WorkspaceFileCache

namespace FileCacheState

variable {state after : FileCacheState}

/-- The files in the cache were asked for after their last invalidation. -/
def Fresh (state : FileCacheState) : Prop :=
  state.cache.All fun key file => state.invalidatedAt key < file.startedAt

/-- A download that ends in time keeps what is shown fresh. -/
theorem Fresh.step (fresh : state.Fresh) {label : FileCacheStep} (ends : state.EndsFresh label)
    (stepped : state.step label = some after) : after.Fresh := by
  cases label with
  | loadCachedWorkspaceFile sessionId path =>
    cases stepped
    have got : (state.cache.get sessionId path).2.All _ := fresh.touch fun _ => ⟨rfl, rfl⟩
    rw [FileCacheState.load]
    split
    · rename_i isGot
      rw [isGot] at got
      exact got.touch fun _ => ⟨rfl, rfl⟩
    · rename_i isGot
      rw [isGot] at got
      exact got
  | downloaded index bytes totalSize mtimeMs =>
    obtain ⟨download, listed, rfl⟩ := map_eq_some_iff.mp stepped
    exact fresh.set (ends download listed)
  | failed index =>
    obtain ⟨_, _, rfl⟩ := map_eq_some_iff.mp stepped
    exact fresh
  | unpin sessionId path =>
    cases stepped
    exact fresh.unpin sessionId path
  | invalidateCachedWorkspaceFile sessionId path =>
    cases stepped
    intro entry mem
    obtain ⟨isOld, apart⟩ := mem_filter.mp mem
    simpa [Function.update, of_decide_eq_true apart] using fresh entry isOld

/-- As long as no download ends that began before an invalidation of its file, the cache has only
files that were asked for after their last invalidation. -/
theorem cached_files_fresh (reaches : (runs.guarded EndsFresh).Reaches state)
    {sessionId path : String} {file : CachedWorkspaceFile}
    (cached : (state.cache.get sessionId path).1 = some file) :
    state.invalidatedAt (cacheKey sessionId path) < file.startedAt := by
  have fresh : state.Fresh := reaches.invariant (by rintro _ rfl entry mem; cases mem)
    fun _ _ _ _ fresh stepped => fresh.step stepped.1 stepped.2
  obtain ⟨entry, found, rfl⟩ := map_eq_some_iff.mp cached
  have named := find?_some found
  rw [← beq_iff_eq.mp named]
  exact fresh entry (mem_of_find?_eq_some found)

theorem cached_files_fresh_reloaded : ∃ (state : FileCacheState) (file : CachedWorkspaceFile),
    (state.cache.get "s" "f").1 = some file ∧
      state.invalidatedAt (cacheKey "s" "f") < file.startedAt := by
  have takes := fun state after label =>
    @Machine.Reaches.next _ _ (runs.guarded EndsFresh) state after label
  have invalidated := takes _ _ (.invalidateCachedWorkspaceFile "s" "f") (.start rfl) ⟨trivial, rfl⟩
  have asked := takes _ _ (.loadCachedWorkspaceFile "s" "f") invalidated ⟨trivial, rfl⟩
  have loaded := takes _ _ (.downloaded 0 [] 0 none) asked ⟨by rintro _ ⟨⟩; decide, rfl⟩
  exact ⟨_, _, rfl, cached_files_fresh loaded rfl⟩

theorem overtaken_download_cached : ¬ ∀ state, runs.Reaches state → ∀ sessionId path file,
    (state.cache.get sessionId path).1 = some file →
      state.invalidatedAt (cacheKey sessionId path) < file.startedAt := by
  intro fresh
  have takes := fun state after label => @Machine.Reaches.next _ _ runs state after label
  have asked := takes _ _ (.loadCachedWorkspaceFile "s" "f") (.start rfl) rfl
  have invalidated := takes _ _ (.invalidateCachedWorkspaceFile "s" "f") asked rfl
  have loaded := takes _ _ (.downloaded 0 [] 0 none) invalidated rfl
  exact absurd (fresh _ loaded "s" "f" _ rfl) (by decide)

end FileCacheState

namespace WorkspaceFileCache

/-- The sizes that count against the budget. -/
def unpinnedSizes (entries : List CacheEntry) : List Nat :=
  (entries.filter (!·.pinned)).map (·.file.bytes.length)

theorem overBudget_of_sublist {entries kept : List CacheEntry}
    (part : (unpinnedSizes kept).Sublist (unpinnedSizes entries))
    (within : overBudget entries = false) : overBudget kept = false := by
  have less := part.sum_le_sum fun _ _ => Nat.zero_le _
  have fewer := part.length_le
  simp only [overBudget, unpinnedSizes, Bool.or_eq_false_iff, decide_eq_false_iff_not,
    length_map] at *
  omega

variable (cache : WorkspaceFileCache)

theorem evict_within : overBudget cache.evict.entries = false := by
  refine evictLoop.run_induction (motive := fun _ last => overBudget last = false) ?_
    (fun _ _ _ rest => rest) cache.entries
  intro entries stop
  simp only [evictLoop] at stop ⊢
  split
  · simp_all
  · rename_i stuck
    split at stuck
    · have unpinned : entries.filter (!·.pinned) = [] :=
        filter_eq_nil_iff.mpr (by simpa [evictable] using Evictable.evictOldest_eq_none stuck)
      simp [overBudget, unpinned]
    · simp_all

theorem unpinnedSizes_map {change : CacheEntry → CacheEntry}
    (same : ∀ entry, (change entry).file = entry.file ∧ (entry.pinned → (change entry).pinned))
    (entries : List CacheEntry) :
    (unpinnedSizes (entries.map change)).Sublist (unpinnedSizes entries) := by
  induction entries with
  | nil => exact Sublist.refl _
  | cons first rest ih =>
    obtain ⟨file, pins⟩ := same first
    simp only [unpinnedSizes, map_cons, filter_cons] at *
    cases was : first.pinned <;> cases now : (change first).pinned <;> simp_all [Sublist.cons]

theorem touch_within {key : String} {change : CacheEntry → CacheEntry}
    (same : ∀ entry, (change entry).file = entry.file ∧ (entry.pinned → (change entry).pinned))
    (within : overBudget cache.entries = false) :
    overBudget (cache.touch key change).entries = false := by
  rw [touch]
  split
  · refine overBudget_of_sublist (unpinnedSizes_map (fun entry => ?_) _) within
    split
    · exact same entry
    · exact ⟨rfl, id⟩
  · exact within

end WorkspaceFileCache

namespace FileCacheState
open WorkspaceFileCache
variable {state : FileCacheState}

/-- In every run, overtaken downloads and all, the unpinned files are within the budget. -/
theorem cache_within_budget (reaches : runs.Reaches state) :
    overBudget state.cache.entries = false := by
  apply reaches.invariant
  · rintro _ rfl
    decide
  · intro state label after _ within stepped
    cases label with
    | loadCachedWorkspaceFile sessionId path =>
      cases stepped
      have got : overBudget (state.cache.get sessionId path).2.entries = false :=
        touch_within _ (fun _ => ⟨rfl, id⟩) within
      rw [FileCacheState.load]
      split
      · rename_i isGot
        rw [isGot] at got
        exact touch_within _ (fun _ => ⟨rfl, fun _ => rfl⟩) got
      · rename_i isGot
        rwa [isGot] at got
    | downloaded | failed =>
      obtain ⟨_, _, rfl⟩ := map_eq_some_iff.mp stepped
      first | exact evict_within _ | exact within
    | unpin sessionId path =>
      cases stepped
      show overBudget (state.cache.unpin sessionId path).entries = false
      rw [WorkspaceFileCache.unpin]
      split
      · exact evict_within _
      · exact within
    | invalidateCachedWorkspaceFile sessionId path =>
      cases stepped
      exact overBudget_of_sublist ((filter_sublist.filter _).map _) within

/-- A file is opened, is downloaded and is closed again. -/
def visit (path : String) : List FileCacheStep :=
  [.loadCachedWorkspaceFile "s" path, .downloaded 0 [1] 1 none, .unpin "s" path]

/-- Seventeen files are visited, and the first once more before the last. -/
def visits : List FileCacheStep :=
  ["a", "b", "c", "d", "e", "f", "g", "h", "i", "j", "k", "l", "m", "n", "o", "p"].flatMap visit ++
    [.loadCachedWorkspaceFile "s" "a", .unpin "s" "a"] ++ visit "q"

def keptFiles (state : FileCacheState) : List (String × Bool) :=
  state.cache.entries.map fun entry => (entry.file.path, entry.pinned)

/-- The last file evicts the second. -/
theorem cache_within_budget_evicted : ∃ state, runs.Reaches state ∧
    state.keptFiles = ["a", "c", "d", "e", "f", "g", "h", "i", "j", "k", "l", "m", "n", "o", "p",
      "q"].map (·, false) ∧
    overBudget state.cache.entries = false := by
  have visited : (visits.foldlM step initial).map keptFiles = some (["a", "c", "d", "e", "f", "g",
      "h", "i", "j", "k", "l", "m", "n", "o", "p", "q"].map (·, false)) := by
    decide +kernel
  obtain ⟨state, ran, kept⟩ := Option.map_eq_some_iff.mp visited
  have reaches : runs.Reaches state := .run (.start rfl) ran
  exact ⟨state, reaches, kept, cache_within_budget reaches⟩

end FileCacheState
end PiRelay.Web
