import Mathlib.Algebra.Ring.Nat
import PiRelay.AgentSession.TranscriptStore
import PiRelay.Library.Machine

/-! When a session compacts by itself. The outcome of every compaction is written to the
metadata of the session in the store; what decides on the next one is a copy of that
metadata, the one that a model request took along. -/
namespace PiRelay.Runtime

open AgentVocab Session
open Library (Machine)

/-- What the metadata keeps of earlier automatic compactions. -/
structure CompactionAutoState where
  consecutiveFailures : Nat := 0
  suppressed : Bool := false
  lastFailure : Option String := none
  lastFailureLeafId : Option EntryId := none
  lastSuccessLeafId : Option EntryId := none
  consecutiveRecompactions : Nat := 0
deriving DecidableEq

inductive CompactionPolicy where
  | missing
  | valid (autoEnabled : Option Bool) (contextWindow autoLimitTokens : Option Nat)
  | invalid
deriving DecidableEq

/-- The part of the metadata that compactions look at. -/
structure SessionMetadata where
  harness : Bool
  policy : CompactionPolicy
  maxConsecutiveFailures : Option Nat
  autoState : CompactionAutoState
deriving DecidableEq

/-- Counters are unsigned words that stop at the end. -/
def saturatingAdd (count : Nat) : Nat := min (count + 1) (2 ^ 64 - 1)

namespace SessionMetadata

variable (metadata : SessionMetadata)

def nextAutoCompactionFailure (fallbackMaxFailures : Nat)
    (sourceLeafId : EntryId) (error : String) : SessionMetadata :=
  let maxFailures := max (metadata.maxConsecutiveFailures.getD fallbackMaxFailures) 1
  let failures := saturatingAdd metadata.autoState.consecutiveFailures
  { metadata with
    autoState := { metadata.autoState with
      consecutiveFailures := failures
      lastFailure := some error
      lastFailureLeafId := some sourceLeafId
      suppressed := decide (maxFailures ≤ failures) } }

def nextCompactionSuccess (sourceLeafId newLeafId : EntryId) (manual : Bool) : SessionMetadata :=
  { metadata with
    autoState :=
      { consecutiveFailures := 0
        suppressed := false
        lastFailure := none
        lastFailureLeafId := none
        consecutiveRecompactions :=
          if !manual && metadata.autoState.lastSuccessLeafId == some sourceLeafId then
            saturatingAdd metadata.autoState.consecutiveRecompactions
          else 0
        lastSuccessLeafId := some newLeafId } }

def resetAutoCompactionFailures : SessionMetadata :=
  { metadata with
    autoState := { metadata.autoState with
      consecutiveFailures := 0
      suppressed := false
      lastFailure := none
      lastFailureLeafId := none
      consecutiveRecompactions := 0 } }

end SessionMetadata

structure ProviderModelMetadata where
  maxInputTokens : Option Nat
  recommendedAutoCompactTokens : Option Nat

structure CompactionConfig where
  autoEnabled : Bool
  autoLimitTokens : Option Nat

def minAutoCompactionLimit : Nat := 8000

def genericAutoLimitForWindow (window : Nat) : Nat :=
  window / 100 * 85 + window % 100 * 85 / 100

def effectiveAutoLimit : Option Nat → Option Nat → Option Nat
  | some window, limit =>
    if window < minAutoCompactionLimit then none
    else limit.map fun limit => min (max limit minAutoCompactionLimit) window
  | none, some limit => some (max limit minAutoCompactionLimit)
  | none, none => none

def CompactionPolicy.explicitlyDisablesAuto : CompactionPolicy → Bool
  | .missing => false
  | .valid autoEnabled _ _ => autoEnabled == some false
  | .invalid => true

def resolveCompactionConfig (discovered : Option ProviderModelMetadata) :
    CompactionPolicy → CompactionConfig
  | .invalid => { autoEnabled := false, autoLimitTokens := none }
  | .missing => resolve none none none
  | .valid autoEnabled contextWindow autoLimitTokens =>
    resolve autoEnabled contextWindow autoLimitTokens
where
  resolve (autoEnabled : Option Bool) (explicitWindow explicitLimit : Option Nat) :
      CompactionConfig :=
    let discoveredWindow := discovered.bind ProviderModelMetadata.maxInputTokens
    let contextWindow := explicitWindow.or discoveredWindow
    let requestedLimit :=
      explicitLimit.or <| (explicitWindow.map genericAutoLimitForWindow).or <|
        (discovered.bind ProviderModelMetadata.recommendedAutoCompactTokens).or <|
          discoveredWindow.map genericAutoLimitForWindow
    let autoLimitTokens := effectiveAutoLimit contextWindow requestedLimit
    { autoEnabled :=
        autoEnabled.getD true && (contextWindow.isNone || autoLimitTokens.isSome)
      autoLimitTokens }

/-- A model request, with the metadata that it took along. -/
structure ModelRequest where
  contextLeafId : Option EntryId
  metadata : SessionMetadata
  running : Bool

def recompactionLimitReached (autoState : CompactionAutoState) (sourceLeafId : EntryId) : Bool :=
  autoState.lastSuccessLeafId == some sourceLeafId && 1 ≤ autoState.consecutiveRecompactions

/-- The source of an automatic compaction of the request, with the limit if there is one. -/
def checkCompactionEligible (request : ModelRequest)
    (discovered : Option ProviderModelMetadata) : Option (EntryId × Option Nat) :=
  if request.metadata.harness then none
  else
    request.contextLeafId.bind fun sourceLeafId =>
      let autoState := request.metadata.autoState
      if autoState.suppressed || autoState.lastFailureLeafId == some sourceLeafId then none
      else if recompactionLimitReached autoState sourceLeafId then none
      else if request.metadata.policy.explicitlyDisablesAuto then none
      else
        let config := resolveCompactionConfig discovered request.metadata.policy
        if config.autoEnabled then some (sourceLeafId, config.autoLimitTokens) else none

/-- What counting the tokens of a request before its dispatch gives. -/
inductive TokenCount where
  | counted (tokens : Nat)
  | overflows
  | failed

inductive GateVerdict where
  | dispatch
  | compact (sourceLeafId : EntryId)
  | fail

/-- A bare compacted root is left alone. -/
def gateModelDispatch (request : ModelRequest) (discovered : Option ProviderModelMetadata)
    (endsInSummary : Bool) (count : TokenCount) : GateVerdict :=
  match checkCompactionEligible request discovered with
  | none | some (_, none) => .dispatch
  | some (sourceLeafId, some limit) =>
    if endsInSummary then .dispatch
    else
      match count with
      | .failed => .fail
      | .overflows => .compact sourceLeafId
      | .counted tokens => if tokens < limit then .dispatch else .compact sourceLeafId

/-- A compaction that has not ended, with the metadata of its task. -/
structure RunningCompaction where
  auto : Bool
  sourceLeafId : EntryId
  metadata : SessionMetadata
deriving DecidableEq

/-- A session and its daemon: the metadata in the store, the configuration of the runtime,
one that has been read for it, and the model action and the compaction that have not ended. -/
structure CompactingSession where
  stored : SessionMetadata
  read : Option SessionMetadata
  active : Option SessionMetadata
  request : Option ModelRequest
  compaction : Option RunningCompaction

inductive CompactionStep where
  | readConfig
  | install
  | unload
  | requestModel (contextLeafId : Option EntryId)
  | dispatchReady (contextLeafId : Option EntryId)
  | gate (discovered : Option ProviderModelMetadata) (endsInSummary : Bool) (count : TokenCount)
  | recoverOverflow (discovered : Option ProviderModelMetadata)
  | respond (resets : Bool)
  | abandon
  | compactManually (sourceLeafId : EntryId)
  | complete (newLeafId : EntryId) (installs : Bool)
  | fail (error : String)

namespace CompactingSession

variable (session : CompactingSession)

/-- Nothing of the session is unfinished. -/
def isIdle : Bool :=
  session.request.isNone && session.compaction.isNone

def startCompaction (request : ModelRequest) (sourceLeafId : EntryId) : CompactingSession :=
  { session with
    request := none
    compaction := some { auto := true, sourceLeafId, metadata := request.metadata } }

def step : CompactionStep → Option CompactingSession
  | .readConfig => some { session with read := some session.stored }
  | .install =>
    session.read.map fun metadata =>
      { session with
        read := none
        active := if session.active.isSome then session.active else some metadata }
  | .unload => some { session with active := none }
  -- A turn that goes on, or the next queued input: the request takes the configuration
  -- that the runtime has.
  | .requestModel contextLeafId =>
    if session.isIdle then
      session.active.map fun metadata =>
        { session with request := some { contextLeafId, metadata, running := false } }
    else none
  -- A pending action of the store takes the configuration of the store.
  | .dispatchReady contextLeafId =>
    if session.compaction.isNone then
      some
        { session with
          request := some { contextLeafId, metadata := session.stored, running := false } }
    else none
  | .gate discovered endsInSummary count =>
    session.request.bind fun request =>
      if request.running then none
      else
        match gateModelDispatch request discovered endsInSummary count with
        | .dispatch => some { session with request := some { request with running := true } }
        | .compact sourceLeafId => some (session.startCompaction request sourceLeafId)
        | .fail => some { session with request := none }
  | .recoverOverflow discovered =>
    session.request.bind fun request =>
      if request.running then
        match checkCompactionEligible request discovered with
        | some (sourceLeafId, _) => some (session.startCompaction request sourceLeafId)
        | none => some { session with request := none }
      else none
  | .respond resets =>
    session.request.map fun _ =>
      { session with
        stored := if resets then session.stored.resetAutoCompactionFailures else session.stored
        request := none }
  | .abandon => some { session with request := none, compaction := none }
  | .compactManually sourceLeafId =>
    if session.isIdle then
      some
        { session with
          compaction := some { auto := false, sourceLeafId, metadata := session.stored } }
    else none
  -- A resumed request takes the configuration that was stored with the success; the
  -- runtime gets it too, unless it could not be installed.
  | .complete newLeafId installs =>
    session.compaction.map fun compaction =>
      let stored := session.stored.nextCompactionSuccess compaction.sourceLeafId newLeafId
        (!compaction.auto)
      if compaction.auto then
        { session with
          stored
          active := if installs then some stored else none
          request :=
            if installs then
              some { contextLeafId := some newLeafId, metadata := stored, running := true }
            else none
          compaction := none }
      else { session with stored, compaction := none }
  -- The runtime keeps the configuration that it has.
  | .fail error =>
    session.compaction.map fun compaction =>
      { session with
        stored :=
          if compaction.auto then
            session.stored.nextAutoCompactionFailure
              (compaction.metadata.maxConsecutiveFailures.getD 3) compaction.sourceLeafId error
          else session.stored
        request := none
        compaction := none }

/-- The session is not in memory, and nothing of it is unfinished. -/
def Initial : Prop :=
  session.read = none ∧ session.active = none ∧ session.request = none ∧
    session.compaction = none

def runs : Machine CompactingSession CompactionStep := .ofSteps Initial step

/-- The step creates an automatic compaction. -/
def StartsAuto (session after : CompactingSession) : Prop :=
  session.compaction = none ∧ ∃ compaction, after.compaction = some compaction ∧
    compaction.auto = true

end CompactingSession

end PiRelay.Runtime
