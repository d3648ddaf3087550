import PiRelay.AgentVocab
import PiRelay.Library.JsonText
import PiRelay.Library.Ordered
import PiRelay.Library.SortedMap

/-! MCP catalogs (`agent-mcp-types/src/catalog.rs`): the tools that servers announce become an
inventory with exposed names and fingerprints, and a session keeps a manifest of those it
selected. The SHA-256 digest of the compact text of a value, in hexadecimal digits, is a
parameter. -/
namespace PiRelay.AgentMcpTypes

open AgentVocab Library

def manifestVersion : Nat := 2
def maxTools : Nat := 512
def maxDescriptionBytes : Nat := 8 * 1024
def maxSchemaBytes : Nat := 24 * 1024
def maxSchemaDepth : Nat := 32
def maxCatalogBytes : Nat := 2 * 1024 * 1024
def maxModelDeclarationBytes : Nat := 32 * 1024
def maxProviderMcpDeclarationsBytes : Nat := 512 * 1024
def maxProviderNameBytes : Nat := 64
def hashSuffixHexBytes : Nat := 10

structure DiscoveredTool where
  serverId : String
  serverConfigFingerprint : String
  rawName : String
  description : String
  inputSchema : Json

structure McpManifestTool where
  serverId : String
  serverConfigFingerprint : String
  rawName : String
  exposedName : String
  description : String
  inputSchema : Json
  contractFingerprint : String

inductive ToolExecution where
  | localJson
  | localFreeformText
deriving DecidableEq

structure ProviderTool where
  canonicalName : String
  promptAlias : Option String
  name : String
  description : String
  inputSchema : Json
  declaration : Json
  execution : ToolExecution
deriving DecidableEq

structure McpSessionManifest where
  version : Nat
  inventoryRevision : String
  serverRevisions : SortedMap String String
  manifestFingerprint : String
  tools : List McpManifestTool
  openaiTools : List ProviderTool
  anthropicTools : List ProviderTool

def McpSessionManifest.providerTools (manifest : McpSessionManifest) :
    ProviderKind → List ProviderTool
  | .openAi => manifest.openaiTools
  | .claude => manifest.anthropicTools

mutual

/-- A value with the fields of its objects in the order of their names; of fields with one
name the last stays. -/
def canonicalJson : Json → Json
  | .array values => .array (canonicalItems values)
  | .object values => .object (collectEntries (canonicalFields values))
  | .null => .null
  | .bool value => .bool value
  | .number value => .number value
  | .string value => .string value

def canonicalItems : List Json → List Json
  | [] => []
  | value :: rest => canonicalJson value :: canonicalItems rest

def canonicalFields : List (String × Json) → List (String × Json)
  | [] => []
  | (key, value) :: rest => (key, canonicalJson value) :: canonicalFields rest

end

mutual

def jsonDepth : Json → Nat → Nat
  | .array values, depth => (itemDepths values (depth + 1)).max?.getD depth
  | .object values, depth => (fieldDepths values (depth + 1)).max?.getD depth
  | .null, depth => depth
  | .bool _, depth => depth
  | .number _, depth => depth
  | .string _, depth => depth

def itemDepths : List Json → Nat → List Nat
  | [], _ => []
  | value :: rest, depth => jsonDepth value depth :: itemDepths rest depth

def fieldDepths : List (String × Json) → Nat → List Nat
  | [], _ => []
  | (_, value) :: rest, depth => jsonDepth value depth :: fieldDepths rest depth

end

def canonicalBytes (value : Json) : Nat := (canonicalJson value).bytes

def isNameChar (char : Char) : Bool := char.isAlphanum || char == '_' || char == '-'

/-- Each run of other characters becomes one underscore. The source goes through the bytes;
all bytes of a character outside ASCII belong to one run. -/
def sanitize (replacing : Bool) : List Char → List Char
  | [] => []
  | char :: rest =>
    if isNameChar char then char :: sanitize false rest
    else if replacing then sanitize true rest
    else '_' :: sanitize true rest

def sanitizedComponent (value : String) : String :=
  let result := sanitize false value.toList
  if result.isEmpty then "_" else String.ofList result

def preliminaryName (serverId rawName : String) : String :=
  "mcp__" ++ sanitizedComponent serverId ++ "__" ++ sanitizedComponent rawName

/-- The base is ASCII text, so its bytes are its characters. -/
def nameWithHash (base fingerprint : String) : String :=
  let suffix := "__" ++ String.ofList (fingerprint.toList.take hashSuffixHexBytes)
  let prefixBytes := maxProviderNameBytes - suffix.utf8ByteSize
  String.ofList (base.toList.take prefixBytes) ++ suffix

/-- A tool in the form of a provider, as `function_json_named` builds it. -/
def declaration (provider : ProviderKind) (name description : String) (inputSchema : Json) : Json :=
  match provider with
  | .openAi =>
    .object [("type", .string "function"), ("name", .string name),
      ("description", .string description), ("strict", .bool false),
      ("parameters", inputSchema)]
  | .claude =>
    .object [("name", .string name), ("description", .string description),
      ("input_schema", inputSchema)]

def providerTool (tool : McpManifestTool) (provider : ProviderKind) : ProviderTool where
  canonicalName := tool.exposedName
  promptAlias := none
  name := tool.exposedName
  description := tool.description
  inputSchema := tool.inputSchema
  declaration := declaration provider tool.exposedName tool.description tool.inputSchema
  execution := .localJson

def ToolExecution.toJson : ToolExecution → Json
  | .localJson => .string "local_json"
  | .localFreeformText => .string "local_freeform_text"

def ProviderTool.toJson (tool : ProviderTool) : Json :=
  let promptAlias := tool.promptAlias.toList.map fun name => ("prompt_alias", Json.string name)
  .object ([("canonical_name", .string tool.canonicalName)] ++ promptAlias ++
    [("name", .string tool.name), ("description", .string tool.description),
      ("input_schema", tool.inputSchema), ("declaration", tool.declaration),
      ("execution", tool.execution.toJson)])

def McpManifestTool.toJson (tool : McpManifestTool) : Json :=
  .object [("server_id", .string tool.serverId),
    ("server_config_fingerprint", .string tool.serverConfigFingerprint),
    ("raw_name", .string tool.rawName), ("exposed_name", .string tool.exposedName),
    ("description", .string tool.description), ("input_schema", tool.inputSchema),
    ("contract_fingerprint", .string tool.contractFingerprint)]

def revisionsJson (revisions : SortedMap String String) : Json :=
  .object (revisions.entries.map fun entry => (entry.1, .string entry.2))

/-- Everything of a manifest but its own fingerprint. -/
def McpSessionManifest.document (manifest : McpSessionManifest) : Json :=
  .object [("version", .number (.unsigned manifest.version)),
    ("inventory_revision", .string manifest.inventoryRevision),
    ("server_revisions", revisionsJson manifest.serverRevisions),
    ("tools", .array (manifest.tools.map McpManifestTool.toJson)),
    ("openai_tools", .array (manifest.openaiTools.map ProviderTool.toJson)),
    ("anthropic_tools", .array (manifest.anthropicTools.map ProviderTool.toJson))]

def contractDocument (tool : DiscoveredTool) : Json :=
  .object [("server_id", .string tool.serverId), ("raw_name", .string tool.rawName),
    ("description", .string tool.description), ("input_schema", canonicalJson tool.inputSchema)]

/-- The contracts of a server in the order of the catalog, with its configuration. -/
def revisionDocument (serverId configFingerprint : String) (candidates : List McpManifestTool) :
    Json :=
  let contracts := (candidates.filter (·.serverId == serverId)).map fun tool =>
    Json.object [("raw_name", .string tool.rawName),
      ("contract_fingerprint", .string tool.contractFingerprint)]
  .object [("server", .string serverId), ("config_fingerprint", .string configFingerprint),
    ("contracts", .array contracts)]

def validateDeclarations : List ProviderTool → Nat → Except String Unit
  | [], total =>
    if maxProviderMcpDeclarationsBytes < total then
      .error ("MCP provider declarations exceed " ++ toString maxProviderMcpDeclarationsBytes
        ++ " bytes")
    else .ok ()
  | tool :: rest, total =>
    if maxModelDeclarationBytes < canonicalBytes tool.declaration then
      .error ("MCP provider declaration " ++ tool.name ++ " exceeds "
        ++ toString maxModelDeclarationBytes ++ " bytes")
    else validateDeclarations rest (total + canonicalBytes tool.declaration)

def validateMcpDeclarationBounds (manifest : McpSessionManifest) : Except String Unit := do
  validateDeclarations manifest.openaiTools 0
  validateDeclarations manifest.anthropicTools 0

def validateCatalogBytes (manifest : McpSessionManifest) : Except String Unit :=
  if maxCatalogBytes < canonicalBytes manifest.document then
    .error ("MCP inventory exceeds " ++ toString maxCatalogBytes ++ " bytes")
  else validateMcpDeclarationBounds manifest

section Digest

variable (sha256Hex : Json → String)

def fingerprintJson (value : Json) : String := sha256Hex (canonicalJson value)

def manifestFingerprint (manifest : McpSessionManifest) : String :=
  fingerprintJson sha256Hex manifest.document

def canonicalCandidate (tool : DiscoveredTool) : Except String McpManifestTool :=
  if tool.serverId = "" ∨ tool.rawName = "" ∨ 256 < tool.rawName.utf8ByteSize then
    .error "MCP server and tool names must be nonempty and tool names at most 256 bytes"
  else if maxDescriptionBytes < tool.description.utf8ByteSize then
    .error ("MCP tool " ++ tool.rawName ++ " description is too large")
  else if maxSchemaDepth < jsonDepth tool.inputSchema 0 then
    .error ("MCP tool " ++ tool.rawName ++ " schema is too deep")
  else if maxSchemaBytes < canonicalBytes tool.inputSchema then
    .error ("MCP tool " ++ tool.rawName ++ " schema is too large")
  else
    .ok
      { serverId := tool.serverId
        serverConfigFingerprint := tool.serverConfigFingerprint
        rawName := tool.rawName
        exposedName := ""
        description := tool.description
        inputSchema := canonicalJson tool.inputSchema
        contractFingerprint := fingerprintJson sha256Hex (contractDocument tool) }

def canonicalCandidates : List DiscoveredTool → Except String (List McpManifestTool)
  | [] => .ok []
  | tool :: rest => do
    let candidate ← canonicalCandidate sha256Hex tool
    let candidates ← canonicalCandidates rest
    .ok (candidate :: candidates)

end Digest

def candidateBefore (left right : McpManifestTool) : Bool :=
  decide (left.serverId < right.serverId) || left.serverId == right.serverId &&
    (decide (left.rawName < right.rawName) || left.rawName == right.rawName &&
      decide (left.contractFingerprint < right.contractFingerprint))

def conflicts (left right : McpManifestTool) : Bool :=
  left.serverId == right.serverId && left.rawName == right.rawName
    && left.contractFingerprint != right.contractFingerprint

def sameContract (left right : McpManifestTool) : Bool :=
  left.serverId == right.serverId && left.rawName == right.rawName
    && left.contractFingerprint == right.contractFingerprint

/-- Two candidates that stand one after the other conflict. -/
def hasConflict : List McpManifestTool → Bool
  | left :: right :: rest => conflicts left right || hasConflict (right :: rest)
  | _ => false

def dedupFrom (kept : McpManifestTool) : List McpManifestTool → List McpManifestTool
  | [] => []
  | candidate :: rest =>
    if sameContract candidate kept then dedupFrom kept rest
    else candidate :: dedupFrom candidate rest

def dedupContracts : List McpManifestTool → List McpManifestTool
  | [] => []
  | candidate :: rest => candidate :: dedupFrom candidate rest

def preliminaryCount (candidates : List McpManifestTool) (name : String) : Nat :=
  candidates.countP fun candidate => preliminaryName candidate.serverId candidate.rawName == name

/-- The name under which providers see a candidate, given how often each name is wanted. -/
def exposedNameOf (preliminaryCounts : String → Nat) (candidate : McpManifestTool) : String :=
  let preliminary := preliminaryName candidate.serverId candidate.rawName
  if maxProviderNameBytes < preliminary.utf8ByteSize ∨ 1 < preliminaryCounts preliminary then
    nameWithHash preliminary candidate.contractFingerprint
  else preliminary

def assignNames (builtinNames : List String) (preliminaryCounts : String → Nat) :
    List McpManifestTool → List String → Except String (List McpManifestTool)
  | [], _ => .ok []
  | candidate :: rest, used =>
    let exposedName := exposedNameOf preliminaryCounts candidate
    if builtinNames.contains exposedName then
      .error ("MCP tool " ++ exposedName ++ " collides with a first-party tool")
    else if used.contains exposedName then
      .error ("MCP exposed-name collision remains for " ++ exposedName)
    else do
      let named ← assignNames builtinNames preliminaryCounts rest (exposedName :: used)
      .ok ({ candidate with exposedName } :: named)

def toolBefore (left right : McpManifestTool) : Bool :=
  decide (left.exposedName < right.exposedName) || left.exposedName == right.exposedName &&
    candidateBefore left right

section Digest

variable (sha256Hex : Json → String)

/-- The manifest of all candidates, under their names and in their order. -/
def inventoryManifest (serverConfigFingerprints : SortedMap String String)
    (candidates : List McpManifestTool) : McpSessionManifest :=
  let serverRevisions := serverConfigFingerprints.mapValues fun serverId configFingerprint =>
    fingerprintJson sha256Hex (revisionDocument serverId configFingerprint candidates)
  { version := manifestVersion
    inventoryRevision := fingerprintJson sha256Hex
      (.object [("version", .number (.unsigned manifestVersion)),
        ("servers", revisionsJson serverRevisions)])
    serverRevisions
    manifestFingerprint := ""
    tools := candidates
    openaiTools := candidates.map (providerTool · .openAi)
    anthropicTools := candidates.map (providerTool · .claude) }

def buildInventoryCatalog (serverConfigFingerprints : SortedMap String String)
    (discovered : List DiscoveredTool) (builtinNames : List String) :
    Except String McpSessionManifest :=
  if maxTools < discovered.length then
    .error ("MCP inventory has more than " ++ toString maxTools ++ " tools")
  else do
    let candidates ← canonicalCandidates sha256Hex discovered
    let candidates := inOrder candidateBefore candidates
    if hasConflict candidates then
      .error "MCP inventory contains conflicting duplicate raw tool names"
    else
      let candidates := dedupContracts candidates
      let candidates ← assignNames builtinNames (preliminaryCount candidates) candidates []
      let manifest :=
        inventoryManifest sha256Hex serverConfigFingerprints (inOrder toolBefore candidates)
      validateCatalogBytes manifest
      .ok manifest

end Digest

end PiRelay.AgentMcpTypes
