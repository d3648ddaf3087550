import PiRelay.AgentMcpTypes.CatalogOrder

/-! The revision of one server hashes its contracts in the order of their exposed names. The
tools of other servers have a part in it where they change that order. -/
namespace PiRelay.AgentMcpTypes

open Library List

variable {sha256Hex : Json → String}

variable (tools : List DiscoveredTool)

/-- Another tool of the discovery has the same preliminary name. -/
def SharesName (serverId rawName : String) : Prop :=
  ∃ other ∈ tools, (other.serverId, other.rawName) ≠ (serverId, rawName) ∧
    preliminaryName other.serverId other.rawName = preliminaryName serverId rawName

instance (tools : List DiscoveredTool) (serverId rawName : String) :
    Decidable (SharesName tools serverId rawName) :=
  inferInstanceAs (Decidable (∃ other ∈ tools, _ ∧ _))

/-- The name under which a contract of a server, a raw name with its fingerprint, is exposed
among the tools of a discovery. -/
def contractName (serverId : String) (contract : String × String) : String :=
  let preliminary := preliminaryName serverId contract.1
  if maxProviderNameBytes < preliminary.utf8ByteSize ∨ SharesName tools serverId contract.1 then
    nameWithHash preliminary contract.2
  else preliminary

def McpManifestTool.contract (tool : McpManifestTool) : String × String :=
  (tool.rawName, tool.contractFingerprint)

def DiscoveredTool.contract (sha256Hex : Json → String) (tool : DiscoveredTool) : String × String :=
  (tool.rawName, contractFingerprintOf sha256Hex tool)

def ownContracts (serverId : String) (tools : List McpManifestTool) : List (String × String) :=
  (tools.filter (·.serverId == serverId)).map McpManifestTool.contract

/-- Both discoveries give the tools of a server names in one order. -/
def NamedAlike (sha256Hex : Json → String) (serverId : String)
    (left right : List DiscoveredTool) : Prop :=
  ∀ one ∈ left, one.serverId = serverId → ∀ other ∈ left, other.serverId = serverId →
    (contractName left serverId (one.contract sha256Hex)
        < contractName left serverId (other.contract sha256Hex) ↔
      contractName right serverId (one.contract sha256Hex)
        < contractName right serverId (other.contract sha256Hex))

theorem one_lt_countP_iff {Value Key : Type} {key : Value → Key} {values : List Value}
    (distinct : (values.map key).Nodup) {test : Value → Bool} {value : Value}
    (mem : value ∈ values) (passes : test value) :
    1 < values.countP test ↔ ∃ other ∈ values, key other ≠ key value ∧ test other := by
  obtain ⟨before, after, rfl⟩ := append_of_mem mem
  have counted : (before ++ value :: after).countP test = (before ++ after).countP test + 1 := by
    simp [countP_append, countP_cons_of_pos passes]
    omega
  have fresh : ∀ other ∈ before ++ after, key other ≠ key value := by
    have moved : ((value :: (before ++ after)).map key).Nodup :=
      (perm_middle.map key).nodup_iff.mp distinct
    intro other hOther same
    rw [map_cons, nodup_cons] at moved
    exact moved.1 (same ▸ mem_map_of_mem hOther)
  rw [counted, Nat.lt_add_left_iff_pos, countP_pos_iff]
  constructor
  · rintro ⟨other, hOther, passesToo⟩
    refine ⟨other, ?_, fresh other hOther, passesToo⟩
    rcases mem_append.mp hOther with inBefore | inAfter
    · exact mem_append_left _ inBefore
    · exact mem_append_right _ (.tail _ inAfter)
  · rintro ⟨other, hOther, different, passesToo⟩
    refine ⟨other, ?_, passesToo⟩
    rcases mem_append.mp hOther with inBefore | inRest
    · exact mem_append_left _ inBefore
    · rcases mem_cons.mp inRest with rfl | inAfter
      · exact absurd rfl different
      · exact mem_append_right _ inAfter

variable {serverConfigFingerprints : SortedMap String String} {discovered : List DiscoveredTool}
  {builtinNames : List String}

theorem Buildable.identities
    (buildable : Buildable sha256Hex serverConfigFingerprints discovered builtinNames) :
    ((catalogCandidates sha256Hex discovered).map McpManifestTool.identity).Nodup := by
  have sorted := inOrder_candidates_pairwise (discovered.map (candidateOf sha256Hex))
  have unique := contract_unique sorted buildable.agreed
  apply pairwise_map.mpr
  apply (dedupContracts_ascends sorted).imp_of_mem
  intro left right hLeft hRight less same
  have kept := (dedupContracts_sublist (inOrder candidateBefore
    (discovered.map (candidateOf sha256Hex)))).subset
  have sameContract := unique left (kept hLeft) right (kept hRight) same
  rw [candidateKey, candidateKey, same, sameContract] at less
  exact absurd less (lt_irrefl _)

theorem exists_candidate (sha256Hex : Json → String) {tool : DiscoveredTool} (mem : tool ∈ discovered) :
    ∃ candidate ∈ catalogCandidates sha256Hex discovered, candidate.serverId = tool.serverId ∧
      candidate.contract = tool.contract sha256Hex := by
  obtain ⟨candidate, hCandidate, sameKey⟩ :=
    key_mem_dedupContracts (mem_inOrder.mpr (mem_map_of_mem mem))
  simp only [candidateKey, McpManifestTool.identity, EmbeddingLike.apply_eq_iff_eq,
    Prod.mk.injEq] at sameKey
  refine ⟨candidate, hCandidate, sameKey.1.1, ?_⟩
  rw [McpManifestTool.contract, sameKey.1.2, sameKey.2]
  rfl

theorem catalogName_eq
    (buildable : Buildable sha256Hex serverConfigFingerprints discovered builtinNames)
    {candidate : McpManifestTool} (mem : candidate ∈ catalogCandidates sha256Hex discovered) :
    catalogName (catalogCandidates sha256Hex discovered) candidate =
      contractName discovered candidate.serverId candidate.contract := by
  have counted : 1 < preliminaryCount (catalogCandidates sha256Hex discovered)
      (preliminaryName candidate.serverId candidate.rawName) ↔
        SharesName discovered candidate.serverId candidate.rawName := by
    rw [preliminaryCount, one_lt_countP_iff buildable.identities mem (by simp)]
    constructor
    · rintro ⟨other, hOther, different, sameName⟩
      obtain ⟨tool, hTool, rfl⟩ := mem_map.mp (mem_catalogCandidates hOther)
      refine ⟨tool, hTool, fun same => different ?_, beq_iff_eq.mp sameName⟩
      exact congrArg toLex same
    · rintro ⟨tool, hTool, different, sameName⟩
      obtain ⟨other, hOther, sameServer, sameContract⟩ := exists_candidate sha256Hex hTool
      have sameRawName : other.rawName = tool.rawName := congrArg Prod.fst sameContract
      refine ⟨other, hOther, fun same => different ?_, ?_⟩
      · rw [← sameServer, ← sameRawName]
        exact toLex.injective same
      · rw [sameServer, sameRawName, sameName, beq_self_eq_true]
  exact if_congr (or_congr Iff.rfl counted) rfl rfl

def toolKey (tool : McpManifestTool) : String ×ₗ (String ×ₗ String) ×ₗ String :=
  toLex (tool.exposedName, candidateKey tool)

theorem toolBefore_compares : Compares toolBefore toolKey := by
  intro left right
  rw [toolKey, toolKey, Prod.Lex.toLex_lt_toLex, ← candidateBefore_compares left right]
  simp [toolBefore]

theorem mem_catalogTools {tool : McpManifestTool} :
    tool ∈ catalogTools sha256Hex discovered ↔
      ∃ candidate ∈ catalogCandidates sha256Hex discovered,
        tool = { candidate with
          exposedName := catalogName (catalogCandidates sha256Hex discovered) candidate } := by
  rw [catalogTools, mem_inOrder, mem_map]
  exact exists_congr fun _ => and_congr_right' eq_comm

section

variable (buildable : Buildable sha256Hex serverConfigFingerprints discovered builtinNames)
include buildable

theorem Buildable.tool_exposedName {tool : McpManifestTool}
    (mem : tool ∈ catalogTools sha256Hex discovered) :
    tool.exposedName = contractName discovered tool.serverId tool.contract := by
  obtain ⟨_, hCandidate, rfl⟩ := mem_catalogTools.mp mem
  exact catalogName_eq buildable hCandidate

theorem Buildable.tools_ascend :
    (catalogTools sha256Hex discovered).Pairwise
      fun left right => left.exposedName < right.exposedName := by
  have names : ((catalogTools sha256Hex discovered).map McpManifestTool.exposedName).Nodup := by
    rw [catalogTools, ((inOrder_perm _ _).map McpManifestTool.exposedName).nodup_iff, map_map]
    exact buildable.distinct
  have atMost : (catalogTools sha256Hex discovered).Pairwise
      fun left right => toolKey left ≤ toolKey right := toolBefore_compares.inOrder_pairwise _
  apply (atMost.and (pairwise_map.mp names)).imp
  rintro left right ⟨notMore, different⟩
  rcases Prod.Lex.toLex_le_toLex.mp notMore with less | same
  · exact less
  · exact absurd same.1 different

theorem Buildable.contracts_ascend (serverId : String) :
    (ownContracts serverId (catalogTools sha256Hex discovered)).Pairwise fun one other =>
      contractName discovered serverId one < contractName discovered serverId other := by
  apply pairwise_map.mpr
  apply (buildable.tools_ascend.filter _).imp_of_mem
  intro left right hLeft hRight less
  obtain ⟨inLeft, leftOwn⟩ := mem_filter.mp hLeft
  obtain ⟨inRight, rightOwn⟩ := mem_filter.mp hRight
  rw [beq_iff_eq] at leftOwn rightOwn
  rwa [buildable.tool_exposedName inLeft, buildable.tool_exposedName inRight, leftOwn,
    rightOwn] at less

end

variable {serverId : String}

theorem mem_ownContracts {contract : String × String} :
    contract ∈ ownContracts serverId (catalogTools sha256Hex discovered) ↔
      ∃ tool ∈ discovered, tool.serverId = serverId ∧ tool.contract sha256Hex = contract := by
  simp only [ownContracts, mem_map, mem_filter, beq_iff_eq]
  constructor
  · rintro ⟨tool, ⟨mem, own⟩, rfl⟩
    obtain ⟨candidate, hCandidate, rfl⟩ := mem_catalogTools.mp mem
    obtain ⟨origin, hOrigin, rfl⟩ := mem_map.mp (mem_catalogCandidates hCandidate)
    exact ⟨origin, hOrigin, own, rfl⟩
  · rintro ⟨tool, mem, own, rfl⟩
    obtain ⟨candidate, hCandidate, sameServer, sameContract⟩ := exists_candidate sha256Hex mem
    exact ⟨_, ⟨mem_catalogTools.mpr ⟨candidate, hCandidate, rfl⟩, sameServer.trans own⟩,
      sameContract⟩

/-- A contract as it stands in the revision of its server. -/
def contractJson (contract : String × String) : Json :=
  .object [("raw_name", .string contract.1), ("contract_fingerprint", .string contract.2)]

theorem canonicalJson_contractJson_injective :
    Function.Injective fun contract => canonicalJson (contractJson contract) := by
  intro one other same
  have field : ∀ name, ((contractJson one).get name).map canonicalJson
      = ((contractJson other).get name).map canonicalJson := by
    intro name
    have atName : (canonicalJson (contractJson one)).get name
        = (canonicalJson (contractJson other)).get name := congrArg (·.get name) same
    rwa [contractJson, contractJson, get_canonicalJson (by simp),
      get_canonicalJson (by simp)] at atName
  have rawName := field "raw_name"
  have fingerprint := field "contract_fingerprint"
  simp [contractJson, Json.get, lookup_cons, canonicalJson] at rawName fingerprint
  exact Prod.ext rawName fingerprint

theorem canonicalJson_revisionDocument_iff (serverId configFingerprint : String)
    {left right : List McpManifestTool} :
    canonicalJson (revisionDocument serverId configFingerprint left) =
        canonicalJson (revisionDocument serverId configFingerprint right) ↔
      ownContracts serverId left = ownContracts serverId right := by
  have contracts : ∀ tools : List McpManifestTool,
      revisionDocument serverId configFingerprint tools =
        .object [("server", .string serverId), ("config_fingerprint", .string configFingerprint),
          ("contracts", .array ((ownContracts serverId tools).map contractJson))] := by
    intro tools
    rw [revisionDocument, ownContracts, map_map]
    rfl
  rw [contracts, contracts]
  constructor
  · intro same
    have atContracts := congrArg (·.get "contracts") same
    rw [get_canonicalJson (by simp), get_canonicalJson (by simp)] at atContracts
    simp [Json.get, lookup_cons, canonicalJson, canonicalItems_eq] at atContracts
    exact (map_injective_iff.mpr canonicalJson_contractJson_injective) atContracts
  · intro same
    rw [same]

theorem get_serverRevisions {configFingerprint : String}
    (configured : serverConfigFingerprints.get serverId = some configFingerprint)
    (candidates : List McpManifestTool) :
    (inventoryManifest sha256Hex serverConfigFingerprints candidates).serverRevisions.get serverId
      = some (fingerprintJson sha256Hex
          (revisionDocument serverId configFingerprint candidates)) := by
  rw [inventoryManifest, SortedMap.get_mapValues, configured]
  rfl

theorem revision_eq_iff {otherConfigFingerprints : SortedMap String String}
    {left right : List DiscoveredTool} {otherBuiltinNames : List String}
    {inventory other : McpSessionManifest} {configFingerprint : String}
    (built : buildInventoryCatalog sha256Hex serverConfigFingerprints left builtinNames
      = .ok inventory)
    (otherBuilt : buildInventoryCatalog sha256Hex otherConfigFingerprints right otherBuiltinNames
      = .ok other) (configured : serverConfigFingerprints.get serverId = some configFingerprint)
    (otherConfigured : otherConfigFingerprints.get serverId = some configFingerprint)
    (own : ∀ tool, tool.serverId = serverId → (tool ∈ left ↔ tool ∈ right))
    (separates : DigestSeparates sha256Hex
      [revisionDocument serverId configFingerprint inventory.tools,
        revisionDocument serverId configFingerprint other.tools]) :
    inventory.serverRevisions.get serverId = other.serverRevisions.get serverId ↔
      NamedAlike sha256Hex serverId left right := by
  obtain ⟨buildable, rfl⟩ := buildInventoryCatalog_ok_iff.mp built
  obtain ⟨otherBuildable, rfl⟩ := buildInventoryCatalog_ok_iff.mp otherBuilt
  have sameContracts : ∀ contract, contract ∈ ownContracts serverId (catalogTools sha256Hex left) ↔
        contract ∈ ownContracts serverId (catalogTools sha256Hex right) := by
    intro contract
    rw [mem_ownContracts, mem_ownContracts]
    constructor
    · rintro ⟨tool, mem, isOwn, isContract⟩
      exact ⟨tool, (own tool isOwn).mp mem, isOwn, isContract⟩
    · rintro ⟨tool, mem, isOwn, isContract⟩
      exact ⟨tool, (own tool isOwn).mpr mem, isOwn, isContract⟩
  have sameDigest : fingerprintJson sha256Hex
        (revisionDocument serverId configFingerprint (catalogTools sha256Hex left))
      = fingerprintJson sha256Hex
        (revisionDocument serverId configFingerprint (catalogTools sha256Hex right)) ↔
      ownContracts serverId (catalogTools sha256Hex left)
        = ownContracts serverId (catalogTools sha256Hex right) := by
    rw [← canonicalJson_revisionDocument_iff serverId configFingerprint]
    constructor
    · exact separates _ (by simp [inventoryManifest]) _ (by simp [inventoryManifest])
    · intro same
      rw [fingerprintJson, fingerprintJson, same]
  rw [get_serverRevisions configured, get_serverRevisions otherConfigured, Option.some_inj,
    sameDigest, eq_iff_ordered_alike sameContracts (buildable.contracts_ascend serverId)
      (otherBuildable.contracts_ascend serverId)]
  simp only [mem_ownContracts, NamedAlike]
  constructor
  · intro alike one hOne oneOwn other hOther otherOwn
    exact alike _ ⟨one, hOne, oneOwn, rfl⟩ _ ⟨other, hOther, otherOwn, rfl⟩
  · rintro alike _ ⟨one, hOne, oneOwn, rfl⟩ _ ⟨other, hOther, otherOwn, rfl⟩
    exact alike one hOne oneOwn other hOther otherOwn

/-- The catalog does not depend on the order of discovery or on repetitions, and the revision
of a server does not depend on the tools of others as long as they leave the names of its own
tools in their order. -/
theorem catalog_independence (sha256Hex : Json → String) :
    (∀ (serverConfigFingerprints : SortedMap String String) (left right : List DiscoveredTool)
        (builtinNames : List String),
      (∀ tool, tool ∈ left ↔ tool ∈ right) → (left.length ≤ maxTools ↔ right.length ≤ maxTools) →
      (∀ one ∈ left, ∀ other ∈ left, one.serverId = other.serverId →
        one.serverConfigFingerprint = other.serverConfigFingerprint) →
      DigestSeparates sha256Hex (left.map contractDocument) →
      (buildInventoryCatalog sha256Hex serverConfigFingerprints left builtinNames).toOption =
        (buildInventoryCatalog sha256Hex serverConfigFingerprints right builtinNames).toOption) ∧
    (∀ (serverConfigFingerprints otherConfigFingerprints : SortedMap String String)
        (left right : List DiscoveredTool) (builtinNames otherBuiltinNames : List String)
        (inventory other : McpSessionManifest) (serverId configFingerprint : String),
      buildInventoryCatalog sha256Hex serverConfigFingerprints left builtinNames
        = .ok inventory →
      buildInventoryCatalog sha256Hex otherConfigFingerprints right otherBuiltinNames
        = .ok other →
      serverConfigFingerprints.get serverId = some configFingerprint →
      otherConfigFingerprints.get serverId = some configFingerprint →
      (∀ tool, tool.serverId = serverId → (tool ∈ left ↔ tool ∈ right)) →
      DigestSeparates sha256Hex [revisionDocument serverId configFingerprint inventory.tools,
        revisionDocument serverId configFingerprint other.tools] →
      (inventory.serverRevisions.get serverId = other.serverRevisions.get serverId ↔
        NamedAlike sha256Hex serverId left right)) := by
  constructor
  · intro serverConfigFingerprints left right builtinNames same within configured separates
    exact buildInventoryCatalog_congr same within configured separates
  · intro serverConfigFingerprints otherConfigFingerprints left right builtinNames
      otherBuiltinNames inventory other serverId configFingerprint built otherBuilt configured
      otherConfigured own separates
    exact revision_eq_iff built otherBuilt configured otherConfigured own separates

def sampleTool (serverId rawName : String) : DiscoveredTool where
  serverId := serverId
  serverConfigFingerprint := ""
  rawName := rawName
  description := ""
  inputSchema := .object []

def sampleConfigs : SortedMap String String := SortedMap.collect [("a", "")]

def firstContract : String × String :=
  ("b__c", "3128fb31b39bf0b5ecc0cd5ca6a9675401e4de128341ea42cf7299b39331b7fa")

def secondContract : String × String :=
  ("b__c0", "bff371f9e1760d3f7ac82b53fa9b47bf38adfea944393f3e5c35d0f775d32686")

def sampleContract (serverId rawName : String) : Json :=
  .object [("description", .string ""), ("input_schema", .object []),
    ("raw_name", .string rawName), ("server_id", .string serverId)]

def sampleRevision (contracts : List (String × String)) : Json :=
  let contractJson (contract : String × String) : Json :=
    .object [("contract_fingerprint", .string contract.2), ("raw_name", .string contract.1)]
  .object [("config_fingerprint", .string ""), ("contracts", .array (contracts.map contractJson)),
    ("server", .string "a")]

def sampleInventory (revision : String) : Json :=
  .object [("servers", .object [("a", .string revision)]),
    ("version", .number (.unsigned manifestVersion))]

/-- SHA-256 on the documents of the samples; the last is that of the selected manifest. -/
def sampleSha256 (value : Json) : String :=
  if value = sampleContract "a" "b__c" then firstContract.2
  else if value = sampleContract "a" "b__c0" then secondContract.2
  else if value = sampleContract "a__b" "c" then
    "649772298330f0366183fae364fc485ee66997b341c521e1fa7e4e4cf01de196"
  else if value = sampleRevision [firstContract, secondContract] then
    "afa1a79945ff5dd588e56e5a48ebac8a29ac82482712ec76f231f76b3c180b78"
  else if value = sampleRevision [secondContract, firstContract] then
    "a47ed18793f360466183e68b829c9371a8685d85ce23a63d494ac4df2d3196c6"
  else if value = sampleInventory
      "afa1a79945ff5dd588e56e5a48ebac8a29ac82482712ec76f231f76b3c180b78" then
    "9edca135e4c8ca736bf431908c9815127a37697fcf1e7767558d0b4ad3fdd1c5"
  else if value = sampleInventory
      "a47ed18793f360466183e68b829c9371a8685d85ce23a63d494ac4df2d3196c6" then
    "24679cb16f42780ba373e93c8d89f67f9d9b2a11fe7263efbdddf9e78d9b3b88"
  else "665f571df3cc8159b1b9c5f1146173be9f767e3b60fbed887e0b5cdbbb0ea415"

def sampleCatalog : Except String McpSessionManifest :=
  buildInventoryCatalog sampleSha256 sampleConfigs tools []

def ownTools : List DiscoveredTool := [sampleTool "a" "b__c", sampleTool "a" "b__c0"]

/-- The tool of the other server wants the name of the first own tool. -/
def disturbedTools : List DiscoveredTool := ownTools ++ [sampleTool "a__b" "c"]

def sampleManifest : McpSessionManifest :=
  inventoryManifest sampleSha256 sampleConfigs (catalogTools sampleSha256 tools)

theorem sampleCatalog_ok {tools : List DiscoveredTool}
    (isOk : (sampleCatalog tools).toOption.isSome) :
    sampleCatalog tools = .ok (sampleManifest tools) := by
  cases built : sampleCatalog tools with
  | error =>
    rw [built] at isOk
    cases isOk
  | ok => rw [(buildInventoryCatalog_ok_iff.mp built).2, sampleManifest]

theorem ownTools_built : sampleCatalog ownTools = .ok (sampleManifest ownTools) :=
  sampleCatalog_ok (by decide +kernel)

theorem disturbedTools_built : sampleCatalog disturbedTools = .ok (sampleManifest disturbedTools) :=
  sampleCatalog_ok (by decide +kernel)

theorem disturbedTools_own (tool : DiscoveredTool) (own : tool.serverId = "a") :
    tool ∈ ownTools ↔ tool ∈ disturbedTools := by
  rw [disturbedTools, mem_append, mem_singleton]
  constructor
  · exact .inl
  · rintro (inOwn | rfl)
    · exact inOwn
    · exact absurd own (by decide +kernel)

instance (documents : List Json) : Decidable (DigestSeparates sampleSha256 documents) :=
  inferInstanceAs (Decidable (∀ one ∈ documents, ∀ other ∈ documents, _ → _))

instance (left right : List DiscoveredTool) : Decidable (NamedAlike sampleSha256 "a" left right) :=
  inferInstanceAs (Decidable (∀ one ∈ left, _ → ∀ other ∈ left, _ → (_ ↔ _)))

/-- The tools in another order give the same catalog, and the tool of the other server, which
changes the order of the names, changes the revision. -/
theorem catalog_independence_sample :
    (sampleCatalog ownTools).toOption = (sampleCatalog ownTools.reverse).toOption ∧
    ((sampleManifest ownTools).serverRevisions.get "a"
        = (sampleManifest disturbedTools).serverRevisions.get "a" ↔
      NamedAlike sampleSha256 "a" ownTools disturbedTools) := by
  obtain ⟨ordered, revisions⟩ := catalog_independence sampleSha256
  constructor
  · apply ordered
    · simp
    · simp
    · decide +kernel
    · decide +kernel
  · exact revisions sampleConfigs sampleConfigs ownTools disturbedTools [] [] _ _ "a" ""
      ownTools_built disturbedTools_built (by decide +kernel) (by decide +kernel)
      disturbedTools_own (by decide +kernel)

/-- A tool of another server changes the revision of a server whose own tools stay. -/
theorem revision_disturbed : ¬ ∀ (sha256Hex : Json → String)
    (serverConfigFingerprints : SortedMap String String) (left right : List DiscoveredTool)
    (inventory other : McpSessionManifest) (serverId : String),
      buildInventoryCatalog sha256Hex serverConfigFingerprints left [] = .ok inventory →
      buildInventoryCatalog sha256Hex serverConfigFingerprints right [] = .ok other →
      (∀ tool, tool.serverId = serverId → (tool ∈ left ↔ tool ∈ right)) →
      inventory.serverRevisions.get serverId = other.serverRevisions.get serverId := by
  intro independent
  have same := independent sampleSha256 sampleConfigs ownTools disturbedTools _ _ "a"
    ownTools_built disturbedTools_built disturbedTools_own
  revert same
  decide +kernel

end PiRelay.AgentMcpTypes
