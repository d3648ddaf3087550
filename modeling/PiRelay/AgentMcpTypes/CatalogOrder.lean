import PiRelay.AgentMcpTypes.Candidates
import PiRelay.AgentMcpTypes.Canonical

/-! What an inventory depends on: the order of discovery and repetitions do not matter, and the
revision of a server depends on the tools of other servers through the names alone. -/
namespace PiRelay.AgentMcpTypes

open Library List

variable {sha256Hex : Json → String}

/-- No two of the documents that differ have one digest. -/
def DigestSeparates (sha256Hex : Json → String) (documents : List Json) : Prop :=
  ∀ one ∈ documents, ∀ other ∈ documents,
    fingerprintJson sha256Hex one = fingerprintJson sha256Hex other →
      canonicalJson one = canonicalJson other

theorem contractDocument_inj {one other : DiscoveredTool}
    (same : canonicalJson (contractDocument one) = canonicalJson (contractDocument other)) :
    one.description = other.description ∧
      canonicalJson one.inputSchema = canonicalJson other.inputSchema := by
  have distinct : ∀ tool : DiscoveredTool, ∀ fields, contractDocument tool = .object fields →
      (fields.map Prod.fst).Nodup := by
    intro tool fields isObject
    obtain rfl := Json.object.inj isObject
    simp
  have field : ∀ name, ((contractDocument one).get name).map canonicalJson
      = ((contractDocument other).get name).map canonicalJson := by
    intro name
    have atName := congrArg (·.get name) same
    rwa [contractDocument, contractDocument, get_canonicalJson (distinct one _ rfl),
      get_canonicalJson (distinct other _ rfl)] at atName
  have description := field "description"
  have inputSchema := field "input_schema"
  simp [contractDocument, Json.get, lookup_cons, canonicalJson] at description inputSchema
  exact ⟨description, inputSchema⟩

theorem candidate_ext {tools : List DiscoveredTool}
    (configured : ∀ one ∈ tools, ∀ other ∈ tools, one.serverId = other.serverId →
      one.serverConfigFingerprint = other.serverConfigFingerprint)
    (separates : DigestSeparates sha256Hex (tools.map contractDocument)) :
    ∀ one ∈ tools.map (candidateOf sha256Hex), ∀ other ∈ tools.map (candidateOf sha256Hex),
      candidateKey one = candidateKey other → one = other := by
  intro one hOne other hOther same
  obtain ⟨tool, hTool, rfl⟩ := mem_map.mp hOne
  obtain ⟨second, hSecond, rfl⟩ := mem_map.mp hOther
  simp only [candidateKey, McpManifestTool.identity, EmbeddingLike.apply_eq_iff_eq,
    Prod.mk.injEq] at same
  obtain ⟨⟨sameServer, sameName⟩, sameContract⟩ := same
  have contracts := contractDocument_inj (separates _ (mem_map_of_mem hTool) _
    (mem_map_of_mem hSecond) sameContract)
  have sameConfig := configured tool hTool second hSecond sameServer
  have sameRawName : tool.rawName = second.rawName := sameName
  have sameServerId : tool.serverId = second.serverId := sameServer
  have sameFingerprint : contractFingerprintOf sha256Hex tool
      = contractFingerprintOf sha256Hex second := sameContract
  rw [candidateOf, candidateOf, sameServerId, sameConfig, sameRawName, contracts.1, contracts.2,
    sameFingerprint]

theorem inOrder_candidates_pairwise (candidates : List McpManifestTool) :
    (inOrder candidateBefore candidates).Pairwise
      fun left right => candidateKey left ≤ candidateKey right :=
  candidateBefore_compares.inOrder_pairwise candidates

theorem hasConflict_inOrder {candidates : List McpManifestTool} :
    hasConflict (inOrder candidateBefore candidates) = false ↔
      ∀ left ∈ candidates, ∀ right ∈ candidates, left.identity = right.identity →
        left.contractFingerprint = right.contractFingerprint := by
  constructor
  · intro agrees left hLeft right hRight
    exact contract_unique (inOrder_candidates_pairwise candidates) agrees
      left (mem_inOrder.mpr hLeft) right (mem_inOrder.mpr hRight)
  · intro agree
    rw [← Bool.not_eq_true]
    intro conflicting
    obtain ⟨left, hLeft, right, hRight, same, different⟩ := conflict_of_hasConflict conflicting
    exact different (agree left (mem_inOrder.mp hLeft) right (mem_inOrder.mp hRight) same)

theorem mem_catalogCandidates {discovered : List DiscoveredTool} {candidate : McpManifestTool}
    (mem : candidate ∈ catalogCandidates sha256Hex discovered) :
    candidate ∈ discovered.map (candidateOf sha256Hex) :=
  mem_inOrder.mp ((dedupContracts_sublist _).subset mem)

variable {left right : List DiscoveredTool}

theorem catalogCandidates_congr (same : ∀ tool, tool ∈ left ↔ tool ∈ right)
    (configured : ∀ one ∈ left, ∀ other ∈ left, one.serverId = other.serverId →
      one.serverConfigFingerprint = other.serverConfigFingerprint)
    (separates : DigestSeparates sha256Hex (left.map contractDocument)) :
    catalogCandidates sha256Hex left = catalogCandidates sha256Hex right := by
  have sameCandidates : ∀ candidate, candidate ∈ right.map (candidateOf sha256Hex) ↔
      candidate ∈ left.map (candidateOf sha256Hex) := by
    intro candidate
    simp only [mem_map, same]
  have stays : ∀ tools : List DiscoveredTool,
      (∀ candidate, candidate ∈ tools.map (candidateOf sha256Hex) ↔
        candidate ∈ left.map (candidateOf sha256Hex)) →
      ∀ candidate, candidate ∈ catalogCandidates sha256Hex tools ↔
        candidate ∈ left.map (candidateOf sha256Hex) := by
    intro tools sameTools candidate
    constructor
    · exact fun mem => (sameTools candidate).mp (mem_catalogCandidates mem)
    · intro mem
      obtain ⟨other, hOther, sameKey⟩ :=
        key_mem_dedupContracts (mem_inOrder.mpr ((sameTools candidate).mpr mem))
      have inLeft := (sameTools other).mp (mem_catalogCandidates hOther)
      obtain rfl := candidate_ext configured separates other inLeft candidate mem sameKey
      exact hOther
  have sameMembers : ∀ candidate, candidate ∈ catalogCandidates sha256Hex left ↔
      candidate ∈ catalogCandidates sha256Hex right := by
    intro candidate
    rw [stays left (fun _ => Iff.rfl), stays right sameCandidates]
  have ascends := dedupContracts_ascends
    (inOrder_candidates_pairwise (left.map (candidateOf sha256Hex)))
  have otherAscends := dedupContracts_ascends
    (inOrder_candidates_pairwise (right.map (candidateOf sha256Hex)))
  exact (eq_iff_ordered_alike sameMembers ascends otherAscends).mpr fun _ _ _ _ => Iff.rfl

theorem catalogTools_congr
    (same : catalogCandidates sha256Hex left = catalogCandidates sha256Hex right) :
    catalogTools sha256Hex left = catalogTools sha256Hex right := by
  rw [catalogTools, catalogTools, same]

section

variable (same : ∀ tool, tool ∈ left ↔ tool ∈ right)
include same

section

variable (within : left.length ≤ maxTools ↔ right.length ≤ maxTools)
include within

theorem Buildable.congr {serverConfigFingerprints : SortedMap String String}
    {builtinNames : List String}
    (candidates : catalogCandidates sha256Hex left = catalogCandidates sha256Hex right)
    (buildable : Buildable sha256Hex serverConfigFingerprints left builtinNames) :
    Buildable sha256Hex serverConfigFingerprints right builtinNames where
  few := within.mp buildable.few
  accepted tool mem := buildable.accepted tool ((same tool).mpr mem)
  agreed := by
    have agree := hasConflict_inOrder.mp buildable.agreed
    apply hasConflict_inOrder.mpr
    simp only [forall_mem_map, same] at agree ⊢
    exact agree
  foreign := candidates ▸ buildable.foreign
  distinct := candidates ▸ buildable.distinct
  bounded := catalogTools_congr candidates ▸ buildable.bounded

/-- The catalog of the same tools in any order is the same. -/
theorem buildInventoryCatalog_congr {serverConfigFingerprints : SortedMap String String}
    {builtinNames : List String}
    (configured : ∀ one ∈ left, ∀ other ∈ left, one.serverId = other.serverId →
      one.serverConfigFingerprint = other.serverConfigFingerprint)
    (separates : DigestSeparates sha256Hex (left.map contractDocument)) :
    (buildInventoryCatalog sha256Hex serverConfigFingerprints left builtinNames).toOption =
      (buildInventoryCatalog sha256Hex serverConfigFingerprints right builtinNames).toOption := by
  have candidates := catalogCandidates_congr same configured separates
  apply toOption_congr
  intro inventory
  rw [buildInventoryCatalog_ok_iff, buildInventoryCatalog_ok_iff, catalogTools_congr candidates]
  constructor
  · exact fun built => ⟨built.1.congr same within candidates, built.2⟩
  · intro built
    have swapped : ∀ tool, tool ∈ right ↔ tool ∈ left := fun tool => (same tool).symm
    exact ⟨built.1.congr swapped within.symm candidates.symm, built.2⟩

end

end

end PiRelay.AgentMcpTypes
