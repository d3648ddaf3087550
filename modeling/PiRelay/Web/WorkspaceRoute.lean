import PiRelay.Library.UriComponent

/-! The routes of workspaces and their URLs (`workspaceRoute.ts`). Text is in UTF-16 units, so
that the decoders meet lone surrogates too. -/
namespace PiRelay.Web

open Library

abbrev RouteId := CodeUnits

inductive ExecutionView
  | overview
  | activity
  | handoffs
deriving DecidableEq

inductive WorkspaceRouteScope
  | project (projectId : RouteId)
  | host

inductive RouteConversation
  | root
  | agent (sessionId : RouteId)

inductive ExecutionFocus
  | root
  | delegation (delegationId : RouteId)
  | agent (sessionId : RouteId)

structure HandoffReference where
  ref : RouteId

structure ConversationRoute where
  scope : WorkspaceRouteScope
  rootSessionId : RouteId
  conversation : RouteConversation

structure ExecutionRoute where
  scope : WorkspaceRouteScope
  rootSessionId : RouteId
  view : ExecutionView
  conversation : RouteConversation
  focus : ExecutionFocus
  handoff : Option HandoffReference

inductive WorkspaceRoute
  | conversation (route : ConversationRoute)
  | execution (route : ExecutionRoute)

/-- What is thrown: a `TypeError` with its message, or the `URIError` of the encoder. -/
inductive Thrown
  | typeError (message : String)
  | uriError
deriving DecidableEq

def isWhiteSpace (unit : UInt16) : Bool :=
  let code := unit.toNat
  (0x09 ≤ code && code ≤ 0x0D) || (0x2000 ≤ code && code ≤ 0x200A) ||
    [0x20, 0xA0, 0x1680, 0x2028, 0x2029, 0x202F, 0x205F, 0x3000, 0xFEFF].contains code

/-- `INVALID_ID_CHARACTERS`: slashes and control characters. -/
def isInvalidIdCharacter (unit : UInt16) : Bool :=
  let code := unit.toNat
  code == 0x2F || code == 0x5C || code ≤ 0x1F || (0x7F ≤ code && code ≤ 0x9F)

def routeId : Option CodeUnits → Option RouteId
  | none => none
  | some value =>
    if value.all isWhiteSpace || value == units "." || value == units ".." ||
        value.any isInvalidIdCharacter then none
    else if (encodeURIComponent value).isSome then some value
    else none

def programmerError (message : String) : Thrown :=
  .typeError ("Workspace route programmer error: " ++ message ++ ".")

variable (value : CodeUnits)

def requireRouteId (label : String) : Except Thrown RouteId :=
  match routeId (some value) with
  | some validated => .ok validated
  | none =>
    .error (programmerError (label ++ " must be non-empty and cannot be \".\", \"..\", or " ++
      "contain slashes, control characters, or malformed Unicode"))

def assertRouteScope : WorkspaceRouteScope → Except Thrown Unit
  | .host => .ok ()
  | .project projectId => do
    let _ ← requireRouteId projectId "project ID"

def assertConversation (conversation : RouteConversation) (rootSessionId : RouteId) :
    Except Thrown Unit :=
  match conversation with
  | .root => .ok ()
  | .agent sessionId => do
    let sessionId ← requireRouteId sessionId "conversation session ID"
    if sessionId = rootSessionId then
      .error (programmerError
        "an agent conversation cannot repeat the root session ID; use kind root")

def assertFocus (focus : ExecutionFocus) (rootSessionId : RouteId) : Except Thrown Unit :=
  match focus with
  | .root => .ok ()
  | .agent sessionId => do
    let sessionId ← requireRouteId sessionId "focus agent session ID"
    if sessionId = rootSessionId then
      .error (programmerError "an agent focus cannot repeat the root session ID; use kind root")
  | .delegation delegationId => do
    let _ ← requireRouteId delegationId "delegation ID"

def assertHandoff : Option HandoffReference → Except Thrown Unit
  | none => .ok ()
  | some handoff => do
    let _ ← requireRouteId handoff.ref "handoff reference"

/-- The types leave the checks of values. -/
def assertWorkspaceRoute : WorkspaceRoute → Except Thrown Unit
  | .conversation route => do
    assertRouteScope route.scope
    let rootSessionId ← requireRouteId route.rootSessionId "root session ID"
    assertConversation route.conversation rootSessionId
  | .execution route => do
    assertRouteScope route.scope
    let rootSessionId ← requireRouteId route.rootSessionId "root session ID"
    assertConversation route.conversation rootSessionId
    assertFocus route.focus rootSessionId
    assertHandoff route.handoff

/-- The marks `!'()*`, which the encoder leaves alone. -/
def isMark (unit : UInt16) : Bool := [0x21, 0x27, 0x28, 0x29, 0x2A].contains unit.toNat

def encodeMarks (text : CodeUnits) : CodeUnits :=
  text.flatMap fun unit => if isMark unit then percent unit.toNat else [unit]

def encodePart : Except Thrown CodeUnits :=
  match encodeURIComponent value with
  | some encoded => .ok (encodeMarks encoded)
  | none => .error .uriError

def ExecutionView.name : ExecutionView → CodeUnits
  | .overview => units "overview"
  | .activity => units "activity"
  | .handoffs => units "handoffs"

def serializePrefix : WorkspaceRouteScope → RouteId → Except Thrown CodeUnits
  | .project projectId, rootSessionId => do
    let project ← encodePart projectId
    let root ← encodePart rootSessionId
    .ok (units "/w/project/" ++ project ++ units "/run/" ++ root)
  | .host, rootSessionId => do
    let root ← encodePart rootSessionId
    .ok (units "/w/host/run/" ++ root)

def conversationParameters : RouteConversation → List (CodeUnits × CodeUnits)
  | .root => []
  | .agent sessionId => [(units "conversation", units "agent:" ++ sessionId)]

def focusParameters : ExecutionFocus → List (CodeUnits × CodeUnits)
  | .root => []
  | .delegation delegationId => [(units "focus", units "delegation:" ++ delegationId)]
  | .agent sessionId => [(units "focus", units "agent:" ++ sessionId)]

def handoffParameters : Option HandoffReference → List (CodeUnits × CodeUnits)
  | none => []
  | some handoff => [(units "handoff", handoff.ref)]

def encodeParameter (parameter : CodeUnits × CodeUnits) : Except Thrown CodeUnits := do
  let value ← encodePart parameter.2
  .ok (parameter.1 ++ units "=" ++ value)

def serializeSearch (parameters : List (CodeUnits × CodeUnits)) : Except Thrown CodeUnits := do
  let pairs ← parameters.mapM encodeParameter
  .ok (if parameters.isEmpty then [] else units "?" ++ (units "&").intercalate pairs)

def serializeWorkspaceRoute (route : WorkspaceRoute) : Except Thrown CodeUnits := do
  assertWorkspaceRoute route
  match route with
  | .conversation route =>
    let start ← serializePrefix route.scope route.rootSessionId
    let conversation ← encodePart
      (match route.conversation with
        | .root => route.rootSessionId
        | .agent sessionId => sessionId)
    .ok (start ++ units "/conversation/" ++ conversation)
  | .execution route =>
    let start ← serializePrefix route.scope route.rootSessionId
    let search ← serializeSearch (conversationParameters route.conversation ++
      focusParameters route.focus ++ handoffParameters route.handoff)
    .ok (start ++ units "/execution/" ++ route.view.name ++ search)

inductive InvalidConversationReason
  | malformed
  | wrongRoot

inductive WorkspaceRouteWarning
  | invalidExecutionConversation (reason : InvalidConversationReason)
      (requestedValue : Option CodeUnits)
  | unsupportedQuery (parameters : List CodeUnits)
  | unsupportedFragment

def WorkspaceRouteWarning.message : WorkspaceRouteWarning → String
  | .invalidExecutionConversation _ _ =>
    "The requested conversation was unavailable. The root conversation is shown instead."
  | .unsupportedQuery _ => "Unsupported workspace query parameters were removed."
  | .unsupportedFragment => "URL fragments are not supported here and were removed."

inductive RouteCorrectionReason
  | explicitConversationDefault
  | explicitFocusDefault
  | explicitOverviewDefault
  | invalidConversationFallback
  | unsupportedQuery
  | unsupportedFragment
  | noncanonicalUrl
deriving DecidableEq

structure WorkspaceRouteCorrection where
  url : CodeUnits
  reasons : List RouteCorrectionReason

structure WorkspaceRouteMatch where
  route : WorkspaceRoute
  canonicalUrl : CodeUnits
  warnings : List WorkspaceRouteWarning
  correction : Option WorkspaceRouteCorrection

inductive RecoveryLabel
  | rootConversation
  | rootOutline

structure WorkspaceRouteRecovery where
  label : RecoveryLabel
  url : CodeUnits

inductive WorkspaceRouteUnavailableIssue
  | invalidPath
  | invalidPathEncoding
  | invalidQueryEncoding
  | invalidConversation
  | invalidFocus
  | invalidHandoff
  | unsupportedOverview

structure WorkspaceRouteUnavailable where
  issue : WorkspaceRouteUnavailableIssue
  message : String
  requestedUrl : CodeUnits
  backTo : Option WorkspaceRouteRecovery

inductive WorkspaceRouteParseResult
  | none
  | route (matched : WorkspaceRouteMatch)
  | unavailable (owned : WorkspaceRouteUnavailable)

structure WorkspaceRouteLocation where
  pathname : CodeUnits
  search : Option CodeUnits
  hash : Option CodeUnits

inductive RouteInput
  | url (url : CodeUnits)
  | location (location : WorkspaceRouteLocation)

structure ParsedLocation where
  pathname : CodeUnits
  search : CodeUnits
  hash : CodeUnits
  requestedUrl : CodeUnits

def cutAt (separator : UInt16) (text : CodeUnits) : CodeUnits × CodeUnits :=
  text.span (· != separator)

def locationParts : RouteInput → ParsedLocation
  | .location input =>
    let search := input.search.getD []
    let hash := input.hash.getD []
    ⟨input.pathname, search, hash, input.pathname ++ search ++ hash⟩
  | .url input =>
    let (withoutHash, hash) := cutAt 0x23 input
    let (pathname, search) := cutAt 0x3F withoutHash
    ⟨pathname, search, hash, input⟩

def ownsWorkspacePath (pathname : CodeUnits) : Bool :=
  pathname == units "/w" || (units "/w/").isPrefixOf pathname

/-- The values of each parameter, in the order of their first appearance. -/
structure ParsedQuery where
  values : List (CodeUnits × List CodeUnits)

variable (query : ParsedQuery)

def ParsedQuery.get (name : CodeUnits) : List CodeUnits :=
  (query.values.lookup name).getD []

def ParsedQuery.add (name value : CodeUnits) : ParsedQuery :=
  if (query.values.lookup name).isSome then
    ⟨query.values.map fun entry =>
      if entry.1 = name then (name, entry.2 ++ [value]) else entry⟩
  else ⟨query.values ++ [(name, [value])]⟩

def decodeQueryPart : Option CodeUnits :=
  decodeURIComponent (value.map fun unit => if unit = 0x2B then 0x20 else unit)

def ParsedQuery.addPair (pair : CodeUnits) : Option ParsedQuery := do
  let (rawName, rest) := cutAt 0x3D pair
  let name ← decodeQueryPart rawName
  let value ← decodeQueryPart rest.tail
  some (query.add name value)

def parseQuery (search : CodeUnits) : Option ParsedQuery :=
  let raw := if search.head? = some 0x3F then search.tail else search
  if raw.isEmpty then some ⟨[]⟩
  else (raw.splitOn 0x26).foldlM ParsedQuery.addPair ⟨[]⟩

def supportedQueryParameters : List CodeUnits :=
  [units "conversation", units "focus", units "handoff", units "overview"]

def unsupportedQueryWarnings (hash : CodeUnits)
    (supportedParameters : List CodeUnits) : List WorkspaceRouteWarning :=
  let parameters := (query.values.map (·.1)).filter (!supportedParameters.contains ·)
  (if parameters.isEmpty then []
    else [.unsupportedQuery (parameters.mergeSort fun left right => decide (left ≤ right))]) ++
    if hash.isEmpty then [] else [.unsupportedFragment]

def splitTypedReference : Option (CodeUnits × CodeUnits) :=
  match cutAt 0x3A value with
  | (_, []) => none
  | ([], _) => none
  | (kind, _ :: id) => some (kind, id)

inductive ConversationReference
  | root
  | agent (sessionId : RouteId)
  | wrongRoot

def parseConversationReference (rootSessionId : RouteId) : Option ConversationReference := do
  let (kind, id) ← splitTypedReference value
  let id ← routeId (some id)
  if kind = units "root" then
    if id = rootSessionId then some .root else some .wrongRoot
  else if kind = units "agent" ∧ id ≠ rootSessionId then some (.agent id)
  else none

def parseFocusReference (rootSessionId : RouteId) : Option ExecutionFocus := do
  let (kind, id) ← splitTypedReference value
  let id ← routeId (some id)
  if kind = units "root" then
    if id = rootSessionId then some .root else none
  else if kind = units "delegation" then some (.delegation id)
  else if kind = units "agent" ∧ id ≠ rootSessionId then some (.agent id)
  else none

structure ParsedPathBase where
  scope : WorkspaceRouteScope
  rootSessionId : RouteId
  suffixOffset : Nat

def decodePathSegments (segments : List CodeUnits) : Option (List CodeUnits) :=
  segments.mapM decodeURIComponent

def projectPathBase (raw decoded : List CodeUnits) : Option ParsedPathBase := do
  let projectId ← routeId decoded[3]?
  let rootSessionId ← routeId decoded[5]?
  if raw[2]? = some (units "project") ∧ raw[4]? = some (units "run") then
    some ⟨.project projectId, rootSessionId, 6⟩
  else none

def hostPathBase (raw decoded : List CodeUnits) : Option ParsedPathBase := do
  let rootSessionId ← routeId decoded[4]?
  if raw[2]? = some (units "host") ∧ raw[3]? = some (units "run") then
    some ⟨.host, rootSessionId, 5⟩
  else none

def parsePathBase (raw decoded : List CodeUnits) : Option ParsedPathBase :=
  if raw[0]? ≠ some [] ∨ raw[1]? ≠ some (units "w") then none
  else projectPathBase raw decoded <|> hostPathBase raw decoded

/-- The base of a path of which not every segment can be decoded. -/
def decodePathBase (raw : List CodeUnits) : Option ParsedPathBase :=
  if raw[0]? ≠ some [] ∨ raw[1]? ≠ some (units "w") then none
  else if raw[2]? = some (units "project") ∧ raw[4]? = some (units "run") then do
    let projectId ← decodeURIComponent (raw[3]?.getD [])
    let rootSessionId ← decodeURIComponent (raw[5]?.getD [])
    some ⟨.project (← routeId (some projectId)), ← routeId (some rootSessionId), 6⟩
  else if raw[2]? = some (units "host") ∧ raw[3]? = some (units "run") then do
    let rootSessionId ← decodeURIComponent (raw[4]?.getD [])
    some ⟨.host, ← routeId (some rootSessionId), 5⟩
  else none

def rootConversationRoute (scope : WorkspaceRouteScope) (rootSessionId : CodeUnits) :
    Except Thrown ConversationRoute := do
  assertRouteScope scope
  let rootSessionId ← requireRouteId rootSessionId "root session ID"
  .ok ⟨scope, rootSessionId, .root⟩

variable (base : ParsedPathBase)

def recoveryForRootConversation : Except Thrown WorkspaceRouteRecovery := do
  let route ← rootConversationRoute base.scope base.rootSessionId
  let url ← serializeWorkspaceRoute (.conversation route)
  .ok ⟨.rootConversation, url⟩

def rootOutlineRecovery : Except Thrown WorkspaceRouteRecovery := do
  let url ← serializeWorkspaceRoute
    (.execution ⟨base.scope, base.rootSessionId, .overview, .root, .root, none⟩)
  .ok ⟨.rootOutline, url⟩

def recoveryFromPartiallyDecodablePath (raw : List CodeUnits) :
    Except Thrown (Option WorkspaceRouteRecovery) :=
  match decodePathBase raw with
  | none => .ok none
  | some base =>
    if raw[base.suffixOffset]? = some (units "conversation") then do
      let recovery ← recoveryForRootConversation base
      .ok (some recovery)
    else if raw[base.suffixOffset]? = some (units "execution") then do
      let recovery ← rootOutlineRecovery base
      .ok (some recovery)
    else .ok none

def WorkspaceRouteWarning.correctionReason : WorkspaceRouteWarning → List RouteCorrectionReason
  | .invalidExecutionConversation _ _ => []
  | .unsupportedQuery _ => [.unsupportedQuery]
  | .unsupportedFragment => [.unsupportedFragment]

def matchedRoute (route : WorkspaceRoute) (location : ParsedLocation)
    (warnings : List WorkspaceRouteWarning) (reasons : List RouteCorrectionReason) :
    Except Thrown WorkspaceRouteMatch := do
  let canonicalUrl ← serializeWorkspaceRoute route
  let correctionReasons := reasons ++ warnings.flatMap WorkspaceRouteWarning.correctionReason
  let correctionReasons :=
    if location.requestedUrl ≠ canonicalUrl ∧ correctionReasons.isEmpty then
      [RouteCorrectionReason.noncanonicalUrl]
    else correctionReasons
  .ok
    { route := route
      canonicalUrl := canonicalUrl
      warnings := warnings
      correction :=
        if location.requestedUrl = canonicalUrl then none
        else some ⟨canonicalUrl, correctionReasons.eraseDups⟩ }

/-- Why an execution route is unavailable. -/
abbrev Refusal := WorkspaceRouteUnavailableIssue × String

def executionConversation (values : List CodeUnits) (rootSessionId : RouteId) :
    RouteConversation × List WorkspaceRouteWarning × List RouteCorrectionReason :=
  let fallback requested reason :=
    (.root, [.invalidExecutionConversation reason requested], [.invalidConversationFallback])
  match values with
  | [] => (.root, [], [])
  | [requested] =>
    match parseConversationReference requested rootSessionId with
    | none => fallback (some requested) .malformed
    | some .wrongRoot => fallback (some requested) .wrongRoot
    | some .root => (.root, [], [.explicitConversationDefault])
    | some (.agent sessionId) => (.agent sessionId, [], [])
  | _ => fallback none .malformed

def executionFocus (values : List CodeUnits) (rootSessionId : RouteId) :
    Except Refusal (ExecutionFocus × List RouteCorrectionReason) :=
  match values with
  | [] => .ok (.root, [])
  | [value] =>
    match parseFocusReference value rootSessionId with
    | none =>
      .error (.invalidFocus,
        "The requested Execution focus is malformed or belongs to another root.")
    | some .root => .ok (.root, [.explicitFocusDefault])
    | some focus => .ok (focus, [])
  | _ =>
    .error (.invalidFocus,
      "The Execution focus query must contain exactly one typed reference.")

def executionHandoff : List CodeUnits → Except Refusal (Option HandoffReference)
  | [] => .ok none
  | [value] =>
    match routeId (some value) with
    | some ref => .ok (some ⟨ref⟩)
    | none => .error (.invalidHandoff, "The requested handoff reference is malformed.")
  | _ => .error (.invalidHandoff, "The requested handoff reference is malformed.")

def executionOverview (values : List CodeUnits) (view : ExecutionView) :
    Except Refusal (List RouteCorrectionReason) :=
  if values.isEmpty then .ok []
  else if values = [units "outline"] ∧ view = .overview then .ok [.explicitOverviewDefault]
  else if values.contains (units "map") then
    .error (.unsupportedOverview,
      "Execution Map is not available yet. Use the root Outline instead.")
  else .error (.unsupportedOverview, "The requested Execution overview mode is not supported.")

def executionRoute (view : ExecutionView) (query : ParsedQuery) (hash : CodeUnits) :
    Except Refusal
      (ExecutionRoute × List WorkspaceRouteWarning × List RouteCorrectionReason) := do
  let (conversation, fallback, conversationReasons) :=
    executionConversation (query.get (units "conversation")) base.rootSessionId
  let (focus, focusReasons) ← executionFocus (query.get (units "focus")) base.rootSessionId
  let handoff ← executionHandoff (query.get (units "handoff"))
  let overviewReasons ← executionOverview (query.get (units "overview")) view
  .ok (⟨base.scope, base.rootSessionId, view, conversation, focus, handoff⟩,
    fallback ++ unsupportedQueryWarnings query hash supportedQueryParameters,
    conversationReasons ++ focusReasons ++ overviewReasons)

def parseExecutionRoute (view : ExecutionView) (query : ParsedQuery)
    (location : ParsedLocation) : Except Thrown WorkspaceRouteParseResult :=
  match executionRoute base view query location.hash with
  | .error (issue, message) => do
    let recovery ← rootOutlineRecovery base
    .ok (.unavailable ⟨issue, message, location.requestedUrl, some recovery⟩)
  | .ok (route, warnings, reasons) => do
    let matched ← matchedRoute (.execution route) location warnings reasons
    .ok (.route matched)

def executionView (segment : CodeUnits) : Option ExecutionView :=
  [ExecutionView.overview, .activity, .handoffs].find? (·.name == segment)

/-- The segments behind the base, raw and decoded. -/
def parseDestination (suffix decoded : List CodeUnits)
    (location : ParsedLocation) : Except Thrown WorkspaceRouteParseResult := do
  let rootConversationRecovery ← recoveryForRootConversation base
  let unavailable issue message (recovery : WorkspaceRouteRecovery) :=
    WorkspaceRouteParseResult.unavailable ⟨issue, message, location.requestedUrl, some recovery⟩
  if suffix[0]? = some (units "conversation") then
    if suffix.length ≠ 2 then
      .ok (unavailable .invalidConversation
        "The Conversation URL must contain exactly one conversation session ID."
        rootConversationRecovery)
    else
      match routeId decoded[1]? with
      | none =>
        .ok (unavailable .invalidConversation
          "The requested conversation session ID is malformed." rootConversationRecovery)
      | some sessionId =>
        match parseQuery location.search with
        | none =>
          .ok (unavailable .invalidQueryEncoding
            "The workspace URL contains invalid query encoding." rootConversationRecovery)
        | some query => do
          let conversation :=
            if sessionId = base.rootSessionId then .root else .agent sessionId
          let matched ← matchedRoute
            (.conversation ⟨base.scope, base.rootSessionId, conversation⟩) location
            (unsupportedQueryWarnings query location.hash []) []
          .ok (.route matched)
  else
    match if suffix[0]? = some (units "execution") ∧ suffix.length = 2 then
        suffix[1]?.bind executionView else none with
    | none =>
      .ok (unavailable .invalidPath
        "The workspace URL does not match a supported Conversation or Execution destination."
        rootConversationRecovery)
    | some view =>
      match parseQuery location.search with
      | none => do
        let recovery ← rootOutlineRecovery base
        .ok (unavailable .invalidQueryEncoding
          "The workspace URL contains invalid query encoding." recovery)
      | some query => parseExecutionRoute base view query location

def parseLocation (location : ParsedLocation) : Except Thrown WorkspaceRouteParseResult :=
  if !ownsWorkspacePath location.pathname then .ok .none
  else
    let rawSegments := location.pathname.splitOn 0x2F
    match decodePathSegments rawSegments with
    | none => do
      let recovery ← recoveryFromPartiallyDecodablePath rawSegments
      .ok (.unavailable ⟨.invalidPathEncoding,
        "The workspace URL contains invalid path encoding.", location.requestedUrl, recovery⟩)
    | some decodedSegments =>
      match parsePathBase rawSegments decodedSegments with
      | none =>
        .ok (.unavailable ⟨.invalidPath,
          "The workspace URL does not match a supported project or Host.",
          location.requestedUrl, none⟩)
      | some base =>
        parseDestination base (rawSegments.drop base.suffixOffset)
          (decodedSegments.drop base.suffixOffset) location

def parseWorkspaceRoute (input : RouteInput) : Except Thrown WorkspaceRouteParseResult :=
  parseLocation (locationParts input)

end PiRelay.Web
