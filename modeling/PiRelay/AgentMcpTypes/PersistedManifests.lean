import PiRelay.AgentMcp.SelectionShape
import PiRelay.AgentMcpTypes.ExposedNames
import PiRelay.AgentMcpTypes.ServerRevisions

/-! A manifest that is selected from an inventory passes the checks of a persisted one, and
passes them again each time it is loaded. -/
namespace PiRelay.AgentMcpTypes

open AgentVocab Library AgentMcp McpSessionSnapshot SortedMap List
open Option hiding or_assoc

variable {sha256Hex : Json → String}

/-- What the check asks of each tool. -/
structure SoundTool (sha256Hex : Json → String) (serverRevisions : SortedMap String String)
    (tool : McpManifestTool) : Prop where
  selected : (serverRevisions.get tool.serverId).isSome
  accepted : tool.discovered.Accepted
  contract : contractFingerprintOf sha256Hex tool.discovered = tool.contractFingerprint
  schema : canonicalJson tool.inputSchema = tool.inputSchema
  name : ProviderName tool.exposedName

theorem validatePersistedTools_ok {serverRevisions : SortedMap String String}
    {tools : List McpManifestTool}
    (sound : ∀ tool ∈ tools, SoundTool sha256Hex serverRevisions tool)
    (ordered : tools.Pairwise fun left right => left.exposedName < right.exposedName)
    (distinct : tools.Pairwise fun left right =>
      (left.serverId, left.rawName) ≠ (right.serverId, right.rawName))
    {exposedNames : List String} {rawNames : List (String × String)}
    {prior : Option McpManifestTool} (freshNames : ∀ tool ∈ tools, tool.exposedName ∉ exposedNames)
    (freshRawNames : ∀ tool ∈ tools, (tool.serverId, tool.rawName) ∉ rawNames)
    (after : ∀ before ∈ prior, ∀ tool ∈ tools, before.exposedName < tool.exposedName) :
    validatePersistedTools sha256Hex serverRevisions tools exposedNames rawNames prior
      = .ok () := by
  induction tools generalizing exposedNames rawNames prior with
  | nil => rfl
  | cons tool _ ih =>
    have first := sound tool (.head _)
    have splitOrdered := pairwise_cons.mp ordered
    have splitDistinct := pairwise_cons.mp distinct
    have selected : (serverRevisions.get tool.serverId).isNone = false := by
      simpa using first.selected
    rw [validatePersistedTools, selected, if_neg Bool.false_ne_true]
    apply bind_eq_ok.mpr
    refine ⟨_, canonicalCandidate_ok_iff.mpr ⟨first.accepted, rfl⟩, ?_⟩
    have matched : ¬ ((candidateOf sha256Hex tool.discovered).contractFingerprint
          ≠ tool.contractFingerprint ∨
        (candidateOf sha256Hex tool.discovered).inputSchema ≠ tool.inputSchema) := by
      rw [not_or, not_not, not_not]
      exact ⟨first.contract, first.schema⟩
    have identified : ¬ (tool.exposedName = "" ∨
        maxProviderNameBytes < tool.exposedName.utf8ByteSize ∨
        tool.exposedName.toList.all isNameChar = false ∨
        exposedNames.contains tool.exposedName ∨
        rawNames.contains (tool.serverId, tool.rawName)) := by
      simp only [not_or, not_lt, contains_iff_mem, first.name.chars]
      exact ⟨first.name.nonempty, first.name.bytes, by decide,
        freshNames tool (.head _), freshRawNames tool (.head _)⟩
    have inOrder : ¬ (prior.any fun before => !toolBefore before tool) := by
      rw [Option.any_eq_true]
      rintro ⟨before, isPrior, notBefore⟩
      have less := after before isPrior tool (.head _)
      simp [toolBefore, less] at notBefore
    rw [if_neg matched, if_neg identified, if_neg inOrder]
    apply ih _ splitOrdered.2 splitDistinct.2
    · intro other mem named
      rcases mem_cons.mp named with same | old
      · exact absurd (splitOrdered.1 other mem) (same ▸ lt_irrefl _)
      · exact freshNames other (.tail _ mem) old
    · intro other mem named
      rcases mem_cons.mp named with same | old
      · exact splitDistinct.1 other mem same.symm
      · exact freshRawNames other (.tail _ mem) old
    · intro before isTool other mem
      obtain rfl := mem_some.mp isTool
      exact splitOrdered.1 other mem
    · exact (forall_mem_cons.mp sound).2

theorem validateDeclarations_ok_iff {tools : List ProviderTool} {total : Nat} :
    validateDeclarations tools total = .ok () ↔
      (∀ tool ∈ tools, canonicalBytes tool.declaration ≤ maxModelDeclarationBytes) ∧
        total + (tools.map fun tool => canonicalBytes tool.declaration).sum
          ≤ maxProviderMcpDeclarationsBytes := by
  induction tools generalizing total with
  | nil =>
    rw [validateDeclarations]
    split
    · rename_i large
      constructor
      · nofun
      · intro bounded
        omega
    · rename_i small
      simpa using not_lt.mp small
  | cons tool _ ih =>
    rw [validateDeclarations]
    split
    · rename_i large
      constructor
      · nofun
      · intro bounded
        exact absurd (bounded.1 tool (.head _)) large.not_ge
    · rename_i small
      rw [ih, forall_mem_cons, map_cons, sum_cons, Nat.add_assoc]
      simp [not_lt.mp small]

theorem validateDeclarations_sublist {kept all : List ProviderTool} (part : kept.Sublist all)
    (valid : validateDeclarations all 0 = .ok ()) : validateDeclarations kept 0 = .ok () := by
  rw [validateDeclarations_ok_iff] at valid ⊢
  have less := (part.map fun tool => canonicalBytes tool.declaration).sum_le_sum
    fun _ _ => Nat.zero_le _
  constructor
  · exact fun tool mem => valid.1 tool (part.subset mem)
  · omega

theorem canonicalJson_revisionsJson (revisions : SortedMap String String) :
    canonicalJson (revisionsJson revisions) = revisionsJson revisions := by
  rw [revisionsJson, canonicalJson, canonicalFields_of_canonical]
  · rw [collectEntries_of_ascends (revisions.ascends.map fun entry => Json.string entry.2)]
  · intro field mem
    obtain ⟨entry, -, rfl⟩ := mem_map.mp mem
    rfl

/-- The manifest is a part of the other one. -/
structure PartOf (kept all : McpSessionManifest) : Prop where
  version : kept.version = all.version
  inventoryRevision : kept.inventoryRevision = all.inventoryRevision
  serverRevisions : kept.serverRevisions.entries.Sublist all.serverRevisions.entries
  tools : kept.tools.Sublist all.tools
  openaiTools : kept.openaiTools.Sublist all.openaiTools
  anthropicTools : kept.anthropicTools.Sublist all.anthropicTools

theorem PartOf.validateCatalogBytes {kept all : McpSessionManifest} (part : PartOf kept all)
    (valid : validateCatalogBytes all = .ok ()) : validateCatalogBytes kept = .ok () := by
  have revisions : canonicalBytes (revisionsJson kept.serverRevisions)
      ≤ canonicalBytes (revisionsJson all.serverRevisions) := by
    rw [canonicalBytes, canonicalBytes, canonicalJson_revisionsJson, canonicalJson_revisionsJson]
    exact Json.object_bytes_le_of_sublist (part.serverRevisions.map _)
  have tools := canonicalBytes_array_le (part.tools.map McpManifestTool.toJson)
  have openaiTools := canonicalBytes_array_le (part.openaiTools.map ProviderTool.toJson)
  have anthropicTools := canonicalBytes_array_le (part.anthropicTools.map ProviderTool.toJson)
  have smaller : canonicalBytes kept.document ≤ canonicalBytes all.document := by
    rw [McpSessionManifest.document, McpSessionManifest.document, canonicalBytes_object (by simp),
      canonicalBytes_object (by simp), part.version, part.inventoryRevision]
    simp only [canonicalBytes] at revisions tools openaiTools anthropicTools
    simp only [map_cons, map_nil, sum_cons, sum_nil, Json.fieldBytes, length_cons, length_nil]
    omega
  rw [AgentMcpTypes.validateCatalogBytes] at valid ⊢
  split at valid
  · cases valid
  · rename_i small
    rw [if_neg (not_lt.mpr (smaller.trans (not_lt.mp small)))]
    rw [validateMcpDeclarationBounds] at valid ⊢
    obtain ⟨_, openai, anthropic⟩ := bind_eq_ok.mp valid
    exact bind_eq_ok.mpr ⟨(), validateDeclarations_sublist part.openaiTools openai,
      validateDeclarations_sublist part.anthropicTools anthropic⟩

variable {serverConfigFingerprints : SortedMap String String} {discovered : List DiscoveredTool}
  {builtinNames : List String}

theorem DiscoveredTool.Accepted.candidate {tool : DiscoveredTool} (accepted : tool.Accepted)
    (sha256Hex : Json → String) : (candidateOf sha256Hex tool).discovered.Accepted :=
  { accepted with
    depth := (jsonDepth_canonicalJson tool.inputSchema 0).trans accepted.depth
    bytes := (canonicalBytes_canonicalJson tool.inputSchema).trans_le accepted.bytes }

theorem contractFingerprintOf_candidate (tool : DiscoveredTool) :
    contractFingerprintOf sha256Hex (candidateOf sha256Hex tool).discovered
      = (candidateOf sha256Hex tool).contractFingerprint := by
  have same : contractDocument (candidateOf sha256Hex tool).discovered = contractDocument tool := by
    simp [contractDocument, McpManifestTool.discovered, candidateOf]
  rw [contractFingerprintOf, same]
  rfl

section

variable (buildable : Buildable sha256Hex serverConfigFingerprints discovered builtinNames)
include buildable

theorem Buildable.soundTool (hex : HexDigest sha256Hex) {tool : McpManifestTool}
    (mem : tool ∈ catalogTools sha256Hex discovered) {serverRevisions : SortedMap String String}
    (selected : (serverRevisions.get tool.serverId).isSome) :
    SoundTool sha256Hex serverRevisions tool := by
  obtain ⟨_, hCandidate, rfl⟩ := mem_catalogTools.mp mem
  obtain ⟨origin, hOrigin, rfl⟩ := mem_map.mp (mem_catalogCandidates hCandidate)
  constructor
  · exact selected
  · exact (buildable.accepted origin hOrigin).candidate sha256Hex
  · exact contractFingerprintOf_candidate origin
  · exact canonicalJson_idem origin.inputSchema
  · exact exposedNameOf_valid hex _ origin

theorem Buildable.tools_distinct :
    (catalogTools sha256Hex discovered).Pairwise fun left right =>
      (left.serverId, left.rawName) ≠ (right.serverId, right.rawName) := by
  have distinct : ((catalogTools sha256Hex discovered).map McpManifestTool.identity).Nodup := by
    rw [catalogTools, ((inOrder_perm _ _).map McpManifestTool.identity).nodup_iff, List.map_map]
    exact buildable.identities
  apply (pairwise_map.mp distinct).imp
  intro left right different same
  exact different (congrArg toLex same)

theorem Buildable.tools_length : (catalogTools sha256Hex discovered).length ≤ maxTools := by
  have fewer : (catalogCandidates sha256Hex discovered).length ≤ discovered.length := by
    have kept := (dedupContracts_sublist (inOrder candidateBefore
      (discovered.map (candidateOf sha256Hex)))).length_le
    rwa [(inOrder_perm _ _).length_eq, length_map] at kept
  rw [catalogTools, (inOrder_perm _ _).length_eq, length_map]
  exact fewer.trans buildable.few

end

theorem HexDigest.ne_empty (hex : HexDigest sha256Hex) (value : Json) : sha256Hex value ≠ "" := by
  intro empty
  have length := hex.length value
  rw [empty] at length
  cases length

section Selected

variable (inventory : McpSessionManifest)

variable (selected : SortedMap String (List String))

def selectedTools : List McpManifestTool :=
  inventory.tools.filter (isSelected selected)

def selectedRevisions : SortedMap String String :=
  selected.filterMapValues fun server _ => inventory.serverRevisions.get server

def selectedManifest : McpSessionManifest where
  version := manifestVersion
  inventoryRevision := inventory.inventoryRevision
  serverRevisions := selectedRevisions inventory selected
  manifestFingerprint := ""
  tools := selectedTools inventory selected
  openaiTools := (selectedTools inventory selected).map (providerTool · .openAi)
  anthropicTools := (selectedTools inventory selected).map (providerTool · .claude)

variable {inventory : McpSessionManifest} {selected : SortedMap String (List String)}

theorem selectedRevisions_get {server revision : String} :
    (selectedRevisions inventory selected).get server = some revision ↔
      (∃ names, selected.get server = some names) ∧
        inventory.serverRevisions.get server = some revision := by
  rw [selectedRevisions, get_filterMapValues, bind_eq_some_iff]
  exact ⟨fun ⟨names, found, own⟩ => ⟨⟨names, found⟩, own⟩,
    fun ⟨⟨names, found⟩, own⟩ => ⟨names, found, own⟩⟩

theorem isSelected_names {tool : McpManifestTool} (isTool : isSelected selected tool) :
    ∃ names, selected.get tool.serverId = some names := by
  rw [isSelected] at isTool
  cases found : selected.get tool.serverId with
  | none =>
    rw [found] at isTool
    cases isTool
  | some names => exact ⟨names, rfl⟩

theorem selectManifest_ok {manifest : McpSessionManifest}
    (isOk : selectManifest inventory selected = .ok manifest) :
    (∀ server names, selected.get server = some names →
      (inventory.serverRevisions.get server).isSome ∧
        ∀ name ∈ names, ∃ tool ∈ selectedTools inventory selected, tool.serverId = server) ∧
    manifest = selectedManifest inventory selected := by
  obtain ⟨_, isRevisions, isOk⟩ := bind_eq_ok.mp isOk
  dsimp only at isOk
  split at isOk
  · cases isOk
  · rename_i known
    rw [selectedServerRevisions] at isRevisions
    split at isRevisions
    · cases isRevisions
    · rename_i configured
      cases isRevisions
      refine ⟨fun server names found => ⟨?_, fun name named => ?_⟩, (Except.ok.inj isOk).symm⟩
      · rw [find?_eq_none] at configured
        have isConfigured := configured server (mem_keys_iff.mpr ⟨names, found⟩)
        simpa [isSome_iff_ne_none] using isConfigured
      · rw [unknownTool, find?_eq_none] at known
        have pair : (server, name) ∈ selected.entries.flatMap fun entry =>
            entry.2.map fun name => (entry.1, name) := by
          rw [mem_flatMap]
          exact ⟨(server, names), get_eq_some_iff.mp found, mem_map_of_mem named⟩
        have listed := known (server, name) pair
        simp only [Bool.not_eq_true', Bool.not_eq_false, List.any_eq_true, Bool.and_eq_true,
          beq_iff_eq] at listed
        obtain ⟨tool, mem, own, -⟩ := listed
        exact ⟨tool, mem, own⟩

theorem selected_served (filled : Filled selected)
    (known : ∀ server names, selected.get server = some names →
      ∀ name ∈ names, ∃ tool ∈ selectedTools inventory selected, tool.serverId = server) :
    ((selectedRevisions inventory selected).keys.any fun server =>
      !(selectedTools inventory selected).any (·.serverId == server)) = false := by
  rw [List.any_eq_false]
  intro server isKey
  obtain ⟨_, found⟩ := mem_keys_iff.mp isKey
  obtain ⟨⟨names, isSelection⟩, -⟩ := selectedRevisions_get.mp found
  have nonempty := (filled (server, names) (get_eq_some_iff.mp isSelection)).2
  obtain ⟨name, named⟩ := exists_mem_of_ne_nil names nonempty
  obtain ⟨tool, mem, own⟩ := known server names isSelection name named
  have served : (selectedTools inventory selected).any (·.serverId == server) :=
    List.any_eq_true.mpr ⟨tool, mem, beq_iff_eq.mpr own⟩
  simp [served]

theorem selected_identified (filled : Filled selected)
    (revised : ∀ server revision, inventory.serverRevisions.get server = some revision →
      revision ≠ "") :
    ((selectedRevisions inventory selected).entries.any fun entry =>
      entry.1 == "" || entry.2 == "") = false := by
  rw [List.any_eq_false]
  intro entry mem
  obtain ⟨⟨names, found⟩, isOwn⟩ := selectedRevisions_get.mp (get_eq_some_iff.mpr mem)
  have named := (filled (entry.1, names) (get_eq_some_iff.mp found)).1
  simp [named, revised entry.1 entry.2 isOwn]

theorem selectedManifest_part (version : inventory.version = manifestVersion)
    (openaiTools : inventory.openaiTools = inventory.tools.map (providerTool · .openAi))
    (anthropicTools : inventory.anthropicTools = inventory.tools.map (providerTool · .claude)) :
    PartOf (selectedManifest inventory selected) inventory where
  version := version.symm
  inventoryRevision := rfl
  serverRevisions := sublist_of_subset fun _ _ found =>
    (selectedRevisions_get.mp found).2
  tools := filter_sublist
  openaiTools := openaiTools ▸ filter_sublist.map _
  anthropicTools := anthropicTools ▸ filter_sublist.map _

theorem validateManifestParts_selected (revision : inventory.inventoryRevision ≠ "")
    (few : (selectedTools inventory selected).length ≤ maxTools)
    (identified : ((selectedRevisions inventory selected).entries.any fun entry =>
      entry.1 == "" || entry.2 == "") = false)
    (checked : validatePersistedTools sha256Hex (selectedRevisions inventory selected)
      (selectedTools inventory selected) [] [] none = .ok ())
    (served : ((selectedRevisions inventory selected).keys.any fun server =>
      !(selectedTools inventory selected).any (·.serverId == server)) = false)
    (limits : validateCatalogBytes (selectedManifest inventory selected) = .ok ()) :
    validateManifestParts sha256Hex (selectedManifest inventory selected) = .ok () := by
  have metadata : ¬ ((selectedManifest inventory selected).inventoryRevision = "" ∨
      maxTools < (selectedManifest inventory selected).tools.length ∨
      ((selectedManifest inventory selected).serverRevisions.entries.any fun entry =>
        entry.1 == "" || entry.2 == "")) := by
    rw [not_or, not_or]
    exact ⟨revision, not_lt.mpr few, by rw [selectedManifest, identified]; decide⟩
  have paired : ∀ provider, validateProviderPairings (selectedManifest inventory selected) provider
      = .ok () := by
    intro provider
    cases provider <;> exact if_neg fun different => different rfl
  rw [validateManifestParts, if_neg (fun different => different rfl), if_neg metadata]
  apply bind_eq_ok.mpr
  refine ⟨(), checked, ?_⟩
  have noEmpty : ¬ ((selectedManifest inventory selected).serverRevisions.keys.any fun server =>
      !(selectedManifest inventory selected).tools.any (·.serverId == server)) := by
    rw [selectedManifest, served]
    decide
  rw [if_neg noEmpty]
  exact bind_eq_ok.mpr ⟨(), paired .openAi, bind_eq_ok.mpr ⟨(), paired .claude, limits⟩⟩

end Selected

theorem inventoryManifest_revised (hex : HexDigest sha256Hex) (tools : List McpManifestTool) :
    ∀ server revision,
      (inventoryManifest sha256Hex serverConfigFingerprints tools).serverRevisions.get server
        = some revision → revision ≠ "" := by
  intro server revision found
  rw [inventoryManifest, get_mapValues, map_eq_some_iff] at found
  obtain ⟨-, -, rfl⟩ := found
  exact hex.ne_empty _

theorem Buildable.validateManifestParts
    (buildable : Buildable sha256Hex serverConfigFingerprints discovered builtinNames)
    (hex : HexDigest sha256Hex) {selected : SortedMap String (List String)}
    (filled : Filled selected) {inventory manifest : McpSessionManifest}
    (built : inventory = inventoryManifest sha256Hex serverConfigFingerprints
      (catalogTools sha256Hex discovered))
    (isOk : selectManifest inventory selected = .ok manifest) :
    validateManifestParts sha256Hex manifest = .ok () := by
  obtain ⟨known, rfl⟩ := selectManifest_ok isOk
  have part : (selectedTools inventory selected).Sublist (catalogTools sha256Hex discovered) := by
    rw [selectedTools, built]
    exact filter_sublist
  have revised : ∀ server revision, inventory.serverRevisions.get server = some revision →
      revision ≠ "" := built ▸ inventoryManifest_revised hex _
  have revision : inventory.inventoryRevision ≠ "" := built ▸ hex.ne_empty _
  have few := part.length_le.trans buildable.tools_length
  have sound : ∀ tool ∈ selectedTools inventory selected,
      SoundTool sha256Hex (selectedRevisions inventory selected) tool := by
    intro tool mem
    apply buildable.soundTool hex (part.subset mem)
    obtain ⟨names, found⟩ := isSelected_names (mem_filter.mp mem).2
    obtain ⟨revision, isOwn⟩ := isSome_iff_exists.mp (known _ names found).1
    rw [selectedRevisions_get.mpr ⟨⟨names, found⟩, isOwn⟩]
    rfl
  have checked : validatePersistedTools sha256Hex (selectedRevisions inventory selected)
      (selectedTools inventory selected) [] [] none = .ok () := by
    apply validatePersistedTools_ok sound (buildable.tools_ascend.sublist part)
      (buildable.tools_distinct.sublist part)
    · simp
    · simp
    · simp
  have served := selected_served filled fun server names found => (known server names found).2
  have limits : validateCatalogBytes (selectedManifest inventory selected) = .ok () :=
    (selectedManifest_part (by rw [built]; rfl) (by rw [built]; rfl)
      (by rw [built]; rfl)).validateCatalogBytes (built ▸ buildable.bounded)
  exact validateManifestParts_selected revision few (selected_identified filled revised) checked
    served limits

theorem McpSessionSnapshot.new_ok {manifest : McpSessionManifest}
    (valid : validatePersistedManifest sha256Hex manifest false = .ok ()) :
    McpSessionSnapshot.new sha256Hex manifest
      = .ok ⟨completedManifest sha256Hex manifest, validatePersistedManifest_completed valid⟩ := by
  rw [new]
  split
  · rfl
  · rename_i failed
    rw [valid] at failed
    cases failed

theorem McpSessionSnapshot.fromPersisted_manifest (snapshot : McpSessionSnapshot sha256Hex) :
    McpSessionSnapshot.fromPersisted sha256Hex snapshot.manifest = .ok snapshot := by
  rw [fromPersisted]
  split
  · rfl
  · rename_i failed
    rw [snapshot.valid] at failed
    cases failed

theorem McpSessionSnapshot.fromPersisted_selected (hex : HexDigest sha256Hex)
    (inventory : McpSessionManifest) (selected : SortedMap String (List String))
    (snapshot : McpSessionSnapshot sha256Hex) :
    McpSessionSnapshot.fromPersisted sha256Hex (selectedManifest inventory selected)
      ≠ .ok snapshot := by
  have unfinished : (manifestFingerprint sha256Hex (selectedManifest inventory selected)
      != (selectedManifest inventory selected).manifestFingerprint) :=
    bne_iff_ne.mpr (hex.ne_empty _)
  have refused : validatePersistedManifest sha256Hex (selectedManifest inventory selected) true
      ≠ .ok () := by
    intro isOk
    obtain ⟨_, -, checked⟩ := bind_eq_ok.mp isOk
    rw [unfinished] at checked
    cases checked
  rw [fromPersisted]
  split
  · rename_i isOk
    exact absurd isOk refused
  · nofun

theorem Buildable.foreign_tool
    (buildable : Buildable sha256Hex serverConfigFingerprints discovered builtinNames)
    {tool : McpManifestTool} (mem : tool ∈ catalogTools sha256Hex discovered) :
    tool.exposedName ∉ builtinNames := by
  obtain ⟨candidate, hCandidate, rfl⟩ := mem_catalogTools.mp mem
  exact buildable.foreign candidate hCandidate

/-- A manifest that is selected from an inventory becomes a snapshot, and what is stored of the
snapshot is loaded as that snapshot. Its tools have names that providers accept, each its own
and none a builtin one. -/
theorem manifests_survive {Stored : Type} (persist : McpSessionManifest → Stored)
    (load : Stored → Option McpSessionManifest)
    (roundTrip : ∀ manifest, load (persist manifest) = some manifest)
    (hex : HexDigest sha256Hex) {inventory manifest : McpSessionManifest}
    {selection : McpSessionSelection} {selected : SortedMap String (List String)}
    (built : buildInventoryCatalog sha256Hex serverConfigFingerprints discovered builtinNames
      = .ok inventory)
    (shaped : validateSelectionShape selection = .ok selected)
    (isOk : selectManifest inventory selected = .ok manifest) :
    (∃ snapshot, McpSessionSnapshot.new sha256Hex manifest = .ok snapshot ∧
      snapshot.manifest = completedManifest sha256Hex manifest ∧
      (load (persist snapshot.manifest)).map (McpSessionSnapshot.fromPersisted sha256Hex)
        = some (.ok snapshot)) ∧
    (manifest.tools.map McpManifestTool.exposedName).Nodup ∧
    ∀ tool ∈ manifest.tools, tool.exposedName.utf8ByteSize ≤ 64 ∧
      (∀ char ∈ tool.exposedName.toList,
        char.isAlphanum = true ∨ char = '_' ∨ char = '-') ∧
      tool.exposedName ∉ builtinNames := by
  obtain ⟨buildable, rfl⟩ := buildInventoryCatalog_ok_iff.mp built
  have parts := buildable.validateManifestParts hex (validateSelectionShape_filled shaped) rfl isOk
  have valid : validatePersistedManifest sha256Hex manifest false = .ok () :=
    bind_eq_ok.mpr ⟨(), parts, rfl⟩
  obtain ⟨-, rfl⟩ := selectManifest_ok isOk
  have part : (selectedTools (inventoryManifest sha256Hex serverConfigFingerprints
      (catalogTools sha256Hex discovered)) selected).Sublist (catalogTools sha256Hex discovered) :=
    filter_sublist
  refine ⟨⟨_, new_ok valid, rfl, ?_⟩, ?_, ?_⟩
  · rw [roundTrip, map_some, fromPersisted_manifest]
  · apply pairwise_map.mpr
    apply (buildable.tools_ascend.sublist part).imp
    intro left right less
    exact ne_of_lt less
  · intro tool mem
    obtain ⟨_, hCandidate, rfl⟩ := mem_catalogTools.mp (part.subset mem)
    obtain ⟨origin, _, rfl⟩ := mem_map.mp (mem_catalogCandidates hCandidate)
    have name := exposedNameOf_valid hex
      (preliminaryCount (catalogCandidates sha256Hex discovered)) origin
    refine ⟨name.bytes, ?_, buildable.foreign_tool (part.subset mem)⟩
    intro char isChar
    have named := List.all_eq_true.mp name.chars char isChar
    simpa [isNameChar, or_assoc] using named

/-- What the check of a hexadecimal digest asks. -/
def isHexDigest (digest : String) : Bool :=
  digest.toList.length == 64 &&
    digest.toList.all fun char => char.isDigit || decide ('a' ≤ char) && decide (char ≤ 'f')

theorem sampleSha256_hex : HexDigest sampleSha256 := by
  have valid : ∀ value, isHexDigest (sampleSha256 value) := by
    intro value
    rw [sampleSha256]
    split_ifs <;> decide +kernel
  simp only [isHexDigest, Bool.and_eq_true, beq_iff_eq, List.all_eq_true, Bool.or_eq_true,
    decide_eq_true_eq] at valid
  exact ⟨fun value => (valid value).1, fun value => (valid value).2⟩

/-- Two of the three tools; one of them has a name with a digest. -/
def twoToolSelection : McpSessionSelection where
  inventoryRevision := "24679cb16f42780ba373e93c8d89f67f9d9b2a11fe7263efbdddf9e78d9b3b88"
  servers := [⟨"a", ["b__c", "b__c0"]⟩]

def twoToolSelected : SortedMap String (List String) := SortedMap.collect [("a", ["b__c", "b__c0"])]

def twoToolManifest : McpSessionManifest :=
  selectedManifest (sampleManifest disturbedTools) twoToolSelected

theorem disturbedTools_beside_bash :
    buildInventoryCatalog sampleSha256 sampleConfigs disturbedTools ["bash"]
      = .ok (sampleManifest disturbedTools) := by
  obtain ⟨buildable, -⟩ := buildInventoryCatalog_ok_iff.mp disturbedTools_built
  exact buildInventoryCatalog_ok_iff.mpr ⟨{ buildable with foreign := by decide +kernel }, rfl⟩

theorem twoTools_shaped : validateSelectionShape twoToolSelection = .ok twoToolSelected := by
  have shape : (validateSelectionShape twoToolSelection).toOption.map entries
      = some twoToolSelected.entries := by decide +kernel
  cases shaped : validateSelectionShape twoToolSelection with
  | error =>
    rw [shaped] at shape
    cases shape
  | ok =>
    rw [shaped] at shape
    exact congrArg _ (ext (Option.some.inj shape))

theorem twoTools_selected :
    selectManifest (sampleManifest disturbedTools) twoToolSelected = .ok twoToolManifest := by
  have isOk : (selectManifest (sampleManifest disturbedTools) twoToolSelected).toOption.isSome := by
    decide +kernel
  cases selected : selectManifest (sampleManifest disturbedTools) twoToolSelected with
  | error =>
    rw [selected] at isOk
    cases isOk
  | ok => rw [(selectManifest_ok selected).2, twoToolManifest]

/-- The manifest of the session becomes a snapshot that is loaded again. -/
theorem manifests_survive_two_tools :
    (∃ snapshot, McpSessionSnapshot.new sampleSha256 twoToolManifest = .ok snapshot ∧
      McpSessionSnapshot.fromPersisted sampleSha256 snapshot.manifest = .ok snapshot) ∧
    (twoToolManifest.tools.map McpManifestTool.exposedName).Nodup ∧
    ∀ tool ∈ twoToolManifest.tools, tool.exposedName.utf8ByteSize ≤ 64 ∧
      tool.exposedName ∉ ["bash"] := by
  obtain ⟨⟨snapshot, isNew, -, loaded⟩, distinct, named⟩ := manifests_survive id some
    (fun _ => rfl) sampleSha256_hex disturbedTools_beside_bash twoTools_shaped twoTools_selected
  refine ⟨⟨snapshot, isNew, Option.some.inj loaded⟩, distinct, ?_⟩
  intro tool mem
  exact ⟨(named tool mem).1, (named tool mem).2.2⟩

/-- Whatever is selected from an inventory, its canonical text and those of the declarations
that go to a provider are within the limits of the inventory. -/
theorem selected_texts_bounded {inventory manifest : McpSessionManifest}
    {selected : SortedMap String (List String)}
    (built : buildInventoryCatalog sha256Hex serverConfigFingerprints discovered builtinNames
      = .ok inventory) (isOk : selectManifest inventory selected = .ok manifest) :
    (canonicalJson manifest.document).write.utf8ByteSize ≤ maxCatalogBytes ∧
      ∀ tools ∈ [manifest.openaiTools, manifest.anthropicTools],
        let sizes := tools.map fun tool => (canonicalJson tool.declaration).write.utf8ByteSize
        (∀ size ∈ sizes, size ≤ maxModelDeclarationBytes) ∧
          sizes.sum ≤ maxProviderMcpDeclarationsBytes := by
  obtain ⟨buildable, rfl⟩ := buildInventoryCatalog_ok_iff.mp built
  obtain ⟨-, rfl⟩ := selectManifest_ok isOk
  have limits : validateCatalogBytes (selectedManifest _ selected) = .ok () :=
    (selectedManifest_part rfl rfl rfl).validateCatalogBytes buildable.bounded
  rw [validateCatalogBytes] at limits
  split at limits
  · cases limits
  · rename_i small
    obtain ⟨⟨⟩, openai, anthropic⟩ := bind_eq_ok.mp limits
    simp only [validateDeclarations_ok_iff, canonicalBytes, Nat.zero_add] at small openai anthropic
    simp_all [Json.write_bytes]

theorem selected_texts_bounded_two_tools :
    (canonicalJson twoToolManifest.document).write.utf8ByteSize ≤ maxCatalogBytes ∧
      ∀ tools ∈ [twoToolManifest.openaiTools, twoToolManifest.anthropicTools],
        let sizes := tools.map fun tool => (canonicalJson tool.declaration).write.utf8ByteSize
        (∀ size ∈ sizes, size ≤ maxModelDeclarationBytes) ∧
          sizes.sum ≤ maxProviderMcpDeclarationsBytes :=
  selected_texts_bounded disturbedTools_beside_bash twoTools_selected

/-- A selected manifest that `new` has not completed is not loaded. -/
theorem selected_not_loaded : ¬ ∀ (sha256Hex : Json → String), HexDigest sha256Hex →
    ∀ (serverConfigFingerprints : SortedMap String String) (discovered : List DiscoveredTool)
      (builtinNames : List String) (inventory manifest : McpSessionManifest)
      (selection : McpSessionSelection) (selected : SortedMap String (List String)),
    buildInventoryCatalog sha256Hex serverConfigFingerprints discovered builtinNames
      = .ok inventory →
    validateSelectionShape selection = .ok selected →
    selectManifest inventory selected = .ok manifest →
    ∃ snapshot, McpSessionSnapshot.fromPersisted sha256Hex manifest = .ok snapshot := by
  intro survives
  obtain ⟨snapshot, loaded⟩ := survives sampleSha256 sampleSha256_hex sampleConfigs disturbedTools
    ["bash"] _ _ twoToolSelection twoToolSelected disturbedTools_beside_bash twoTools_shaped
    twoTools_selected
  exact fromPersisted_selected sampleSha256_hex _ _ snapshot loaded

end PiRelay.AgentMcpTypes
