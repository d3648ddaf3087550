import PiRelay.AgentMcpTypes.Catalog

/-! The manifest that a session keeps: it is selected from an inventory, completed with its
fingerprint, and checked again whenever it is loaded (`agent-mcp-types/src/catalog.rs`). -/
namespace PiRelay.AgentMcpTypes

open AgentVocab Library

def selectedServerRevisions (inventory : McpSessionManifest)
    (selection : SortedMap String (List String)) : Except String (SortedMap String String) :=
  match selection.keys.find? fun server => (inventory.serverRevisions.get server).isNone with
  | some server => .error ("unknown MCP server " ++ server)
  | none => .ok (selection.filterMapValues fun server _ => inventory.serverRevisions.get server)

def isSelected (selection : SortedMap String (List String)) (tool : McpManifestTool) : Bool :=
  (selection.get tool.serverId).any (·.contains tool.rawName)

def unknownTool (selection : SortedMap String (List String)) (tools : List McpManifestTool) :
    Option (String × String) :=
  (selection.entries.flatMap fun entry => entry.2.map fun name => (entry.1, name)).find?
    fun (server, name) => !tools.any fun tool => tool.serverId == server && tool.rawName == name

def selectManifest (inventory : McpSessionManifest) (selection : SortedMap String (List String)) :
    Except String McpSessionManifest := do
  let serverRevisions ← selectedServerRevisions inventory selection
  let tools := inventory.tools.filter (isSelected selection)
  match unknownTool selection tools with
  | some (server, name) => .error ("unknown MCP tool " ++ server ++ "/" ++ name)
  | none =>
    .ok
      { version := manifestVersion
        inventoryRevision := inventory.inventoryRevision
        serverRevisions
        manifestFingerprint := ""
        tools
        openaiTools := tools.map (providerTool · .openAi)
        anthropicTools := tools.map (providerTool · .claude) }

def McpManifestTool.discovered (tool : McpManifestTool) : DiscoveredTool where
  serverId := tool.serverId
  serverConfigFingerprint := tool.serverConfigFingerprint
  rawName := tool.rawName
  description := tool.description
  inputSchema := tool.inputSchema

section Digest

variable (sha256Hex : Json → String)

def validatePersistedTools (serverRevisions : SortedMap String String) :
    List McpManifestTool → List String → List (String × String) → Option McpManifestTool →
      Except String Unit
  | [], _, _, _ => .ok ()
  | tool :: rest, exposedNames, rawNames, prior =>
    if (serverRevisions.get tool.serverId).isNone then
      .error "persisted MCP tool has no selected server revision"
    else do
      let canonical ← canonicalCandidate sha256Hex tool.discovered
      if canonical.contractFingerprint ≠ tool.contractFingerprint
          ∨ canonical.inputSchema ≠ tool.inputSchema then
        .error "persisted MCP tool contract fingerprint does not match"
      else if tool.exposedName = "" ∨ maxProviderNameBytes < tool.exposedName.utf8ByteSize
          ∨ tool.exposedName.toList.all isNameChar = false
          ∨ exposedNames.contains tool.exposedName
          ∨ rawNames.contains (tool.serverId, tool.rawName) then
        .error "persisted MCP tool identity is invalid or duplicated"
      else if prior.any fun prior => !toolBefore prior tool then
        .error "persisted MCP tools are not in deterministic order"
      else
        validatePersistedTools serverRevisions rest (tool.exposedName :: exposedNames)
          ((tool.serverId, tool.rawName) :: rawNames) (some tool)

variable (manifest : McpSessionManifest)

def validateProviderPairings (provider : ProviderKind) : Except String Unit :=
  if manifest.providerTools provider ≠ manifest.tools.map (providerTool · provider) then
    .error "persisted MCP provider declarations do not match the manifest"
  else .ok ()

/-- The checks that do not read the fingerprint of the manifest. -/
def validateManifestParts : Except String Unit :=
  if manifest.version ≠ manifestVersion then
    .error ("unsupported persisted MCP manifest version " ++ toString manifest.version)
  else if manifest.inventoryRevision = "" ∨ maxTools < manifest.tools.length
      ∨ manifest.serverRevisions.entries.any fun entry => entry.1 == "" || entry.2 == "" then
    .error "persisted MCP manifest contains invalid inventory metadata"
  else do
    validatePersistedTools sha256Hex manifest.serverRevisions manifest.tools [] [] none
    if manifest.serverRevisions.keys.any fun server =>
        !manifest.tools.any (·.serverId == server) then
      .error "persisted MCP manifest contains an empty selected server"
    else
      validateProviderPairings manifest .openAi
      validateProviderPairings manifest .claude
      validateCatalogBytes manifest

def validatePersistedManifest (checkFingerprint : Bool) : Except String Unit := do
  validateManifestParts sha256Hex manifest
  if checkFingerprint && manifestFingerprint sha256Hex manifest != manifest.manifestFingerprint then
    .error "persisted MCP manifest fingerprint does not match"
  else .ok ()

def completedManifest : McpSessionManifest :=
  { manifest with manifestFingerprint := manifestFingerprint sha256Hex manifest }

variable {sha256Hex}

theorem validatePersistedManifest_completed {manifest : McpSessionManifest}
    (valid : validatePersistedManifest sha256Hex manifest false = .ok ()) :
    validatePersistedManifest sha256Hex (completedManifest sha256Hex manifest) true = .ok () := by
  have parts : validateManifestParts sha256Hex (completedManifest sha256Hex manifest)
      = validateManifestParts sha256Hex manifest := rfl
  have digest : manifestFingerprint sha256Hex (completedManifest sha256Hex manifest)
      = (completedManifest sha256Hex manifest).manifestFingerprint := rfl
  rw [validatePersistedManifest] at valid ⊢
  rw [parts, digest]
  simpa using valid

variable (sha256Hex)

/-- A manifest that passes every check. -/
structure McpSessionSnapshot where
  manifest : McpSessionManifest
  valid : validatePersistedManifest sha256Hex manifest true = .ok ()

namespace McpSessionSnapshot

def new : Except String (McpSessionSnapshot sha256Hex) :=
  match checked : validatePersistedManifest sha256Hex manifest false with
  | .ok _ => .ok ⟨completedManifest sha256Hex manifest, validatePersistedManifest_completed checked⟩
  | .error error => .error error

def fromPersisted : Except String (McpSessionSnapshot sha256Hex) :=
  match checked : validatePersistedManifest sha256Hex manifest true with
  | .ok _ => .ok ⟨manifest, checked⟩
  | .error error => .error error

end McpSessionSnapshot

end Digest

end PiRelay.AgentMcpTypes
