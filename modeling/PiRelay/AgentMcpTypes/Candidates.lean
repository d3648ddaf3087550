import Mathlib.Data.Prod.Lex
import PiRelay.AgentMcpTypes.Catalog
import PiRelay.Library.Fallible

/-! The candidates of an inventory: how they are ordered, which repetitions are left out and
which names they get. -/
namespace PiRelay.AgentMcpTypes

open Library List

variable {sha256Hex : Json → String}

/-- The limits that a discovered tool keeps. -/
structure DiscoveredTool.Accepted (tool : DiscoveredTool) : Prop where
  server : tool.serverId ≠ ""
  named : tool.rawName ≠ ""
  rawName : tool.rawName.utf8ByteSize ≤ 256
  description : tool.description.utf8ByteSize ≤ maxDescriptionBytes
  depth : jsonDepth tool.inputSchema 0 ≤ maxSchemaDepth
  bytes : canonicalBytes tool.inputSchema ≤ maxSchemaBytes

def contractFingerprintOf (sha256Hex : Json → String) (tool : DiscoveredTool) : String :=
  fingerprintJson sha256Hex (contractDocument tool)

def candidateOf (sha256Hex : Json → String) (tool : DiscoveredTool) : McpManifestTool where
  serverId := tool.serverId
  serverConfigFingerprint := tool.serverConfigFingerprint
  rawName := tool.rawName
  exposedName := ""
  description := tool.description
  inputSchema := canonicalJson tool.inputSchema
  contractFingerprint := contractFingerprintOf sha256Hex tool

variable {candidate left right : McpManifestTool} {candidates : List McpManifestTool}

theorem canonicalCandidate_ok_iff {tool : DiscoveredTool} :
    canonicalCandidate sha256Hex tool = .ok candidate ↔
      tool.Accepted ∧ candidate = candidateOf sha256Hex tool := by
  rw [canonicalCandidate]
  split
  · rename_i unnamed
    constructor
    · nofun
    · rintro ⟨accepted, -⟩
      rcases unnamed with noServer | noName | long
      · exact absurd noServer accepted.server
      · exact absurd noName accepted.named
      · exact absurd accepted.rawName long.not_ge
  · rename_i isNamed
    rw [not_or, not_or, not_lt] at isNamed
    split
    · rename_i large
      constructor
      · nofun
      · exact fun accepted => absurd accepted.1.description large.not_ge
    · rename_i short
      split
      · rename_i deep
        constructor
        · nofun
        · exact fun accepted => absurd accepted.1.depth deep.not_ge
      · rename_i flat
        split
        · rename_i large
          constructor
          · nofun
          · exact fun accepted => absurd accepted.1.bytes large.not_ge
        · rename_i small
          constructor
          · intro isOk
            refine ⟨⟨isNamed.1, isNamed.2.1, isNamed.2.2, ?_, ?_, ?_⟩, (Except.ok.inj isOk).symm⟩
            · exact not_lt.mp short
            · exact not_lt.mp flat
            · exact not_lt.mp small
          · rintro ⟨-, rfl⟩
            rfl

theorem canonicalCandidates_ok_iff {tools : List DiscoveredTool} :
    canonicalCandidates sha256Hex tools = .ok candidates ↔
      (∀ tool ∈ tools, tool.Accepted) ∧ candidates = tools.map (candidateOf sha256Hex) := by
  induction tools generalizing candidates with
  | nil => simp [canonicalCandidates, eq_comm]
  | cons _ _ ih =>
    rw [canonicalCandidates, bind_eq_ok]
    constructor
    · rintro ⟨_, isCandidate, others⟩
      obtain ⟨_, isLater, isOk⟩ := bind_eq_ok.mp others
      obtain ⟨accepted, rfl⟩ := canonicalCandidate_ok_iff.mp isCandidate
      obtain ⟨allAccepted, rfl⟩ := ih.mp isLater
      exact ⟨forall_mem_cons.mpr ⟨accepted, allAccepted⟩, (Except.ok.inj isOk).symm⟩
    · rintro ⟨accepted, rfl⟩
      rw [forall_mem_cons] at accepted
      refine ⟨_, canonicalCandidate_ok_iff.mpr ⟨accepted.1, rfl⟩, bind_eq_ok.mpr ?_⟩
      exact ⟨_, ih.mpr ⟨accepted.2, rfl⟩, rfl⟩

/-- What tells the tools of a catalog apart. -/
def McpManifestTool.identity (tool : McpManifestTool) : String ×ₗ String :=
  toLex (tool.serverId, tool.rawName)

def candidateKey (tool : McpManifestTool) : (String ×ₗ String) ×ₗ String :=
  toLex (tool.identity, tool.contractFingerprint)

theorem candidateBefore_compares : Compares candidateBefore candidateKey := by
  intro left right
  rw [candidateKey, candidateKey, Prod.Lex.toLex_lt_toLex, McpManifestTool.identity,
    McpManifestTool.identity, Prod.Lex.toLex_lt_toLex]
  simp only [candidateBefore, Bool.or_eq_true, Bool.and_eq_true, decide_eq_true_eq, beq_iff_eq,
    EmbeddingLike.apply_eq_iff_eq, Prod.mk.injEq]
  tauto

theorem sameContract_iff : sameContract left right ↔ candidateKey left = candidateKey right := by
  simp [sameContract, candidateKey, McpManifestTool.identity]

theorem conflicts_iff :
    conflicts left right ↔
      left.identity = right.identity ∧ left.contractFingerprint ≠ right.contractFingerprint := by
  simp [conflicts, McpManifestTool.identity]

theorem identity_le (atMost : candidateKey left ≤ candidateKey right) :
    left.identity ≤ right.identity := by
  rcases Prod.Lex.toLex_le_toLex.mp atMost with less | same
  · exact less.le
  · exact same.1.le

theorem contract_unique
    (sorted : candidates.Pairwise fun left right => candidateKey left ≤ candidateKey right)
    (agrees : hasConflict candidates = false) :
    ∀ left ∈ candidates, ∀ right ∈ candidates, left.identity = right.identity →
      left.contractFingerprint = right.contractFingerprint := by
  induction candidates with
  | nil => intro left mem; cases mem
  | cons first rest ih =>
    have splitSorted := pairwise_cons.mp sorted
    have later : hasConflict rest = false := by
      cases rest with
      | nil => rfl
      | cons =>
        rw [hasConflict, Bool.or_eq_false_iff] at agrees
        exact agrees.2
    have firstAgrees : ∀ right ∈ rest, first.identity = right.identity →
        first.contractFingerprint = right.contractFingerprint := by
      intro right mem same
      cases rest with
      | nil => cases mem
      | cons next =>
        -- The next candidate lies between the two in the order, so it is the same tool.
        have between : next.identity = right.identity := by
          apply le_antisymm
          · rcases mem_cons.mp mem with rfl | inOthers
            · exact le_rfl
            · exact identity_le ((pairwise_cons.mp splitSorted.2).1 right inOthers)
          · rw [← same]
            exact identity_le (splitSorted.1 next (.head _))
        rw [hasConflict, Bool.or_eq_false_iff, ← Bool.not_eq_true, conflicts_iff] at agrees
        have nextAgrees : first.contractFingerprint = next.contractFingerprint := by
          by_contra different
          exact agrees.1 ⟨same.trans between.symm, different⟩
        exact nextAgrees.trans (ih splitSorted.2 later next (.head _) right mem between)
    intro left hLeft right hRight same
    rcases mem_cons.mp hLeft with rfl | leftInRest
    · rcases mem_cons.mp hRight with rfl | rightInRest
      · rfl
      · exact firstAgrees right rightInRest same
    · rcases mem_cons.mp hRight with rfl | rightInRest
      · exact (firstAgrees left leftInRest same.symm).symm
      · exact ih splitSorted.2 later left leftInRest right rightInRest same

theorem conflict_of_hasConflict (conflicting : hasConflict candidates) :
    ∃ left ∈ candidates, ∃ right ∈ candidates, left.identity = right.identity ∧
      left.contractFingerprint ≠ right.contractFingerprint := by
  induction candidates with
  | nil => cases conflicting
  | cons first rest ih =>
    cases rest with
    | nil => cases conflicting
    | cons next =>
      rw [hasConflict, Bool.or_eq_true] at conflicting
      rcases conflicting with atFirst | later
      · exact ⟨first, by simp, next, by simp, conflicts_iff.mp atFirst⟩
      · obtain ⟨left, hLeft, right, hRight, conflict⟩ := ih later
        exact ⟨left, .tail _ hLeft, right, .tail _ hRight, conflict⟩

theorem dedupFrom_sublist (kept : McpManifestTool) (rest : List McpManifestTool) :
    (dedupFrom kept rest).Sublist rest := by
  induction rest generalizing kept with
  | nil => exact List.Sublist.refl _
  | cons first _ ih =>
    rw [dedupFrom]
    split
    · exact (ih kept).cons first
    · exact (ih first).cons_cons first

theorem dedupFrom_ascends {kept : McpManifestTool} {rest : List McpManifestTool}
    (sorted : (kept :: rest).Pairwise fun left right => candidateKey left ≤ candidateKey right) :
    (kept :: dedupFrom kept rest).Pairwise
      fun left right => candidateKey left < candidateKey right := by
  induction rest generalizing kept with
  | nil => simp [dedupFrom]
  | cons first _ ih =>
    have splitSorted := pairwise_cons.mp sorted
    have splitRest := pairwise_cons.mp splitSorted.2
    rw [dedupFrom]
    split
    · apply ih
      apply pairwise_cons.mpr
      constructor
      · exact (forall_mem_cons.mp splitSorted.1).2
      · exact splitRest.2
    · rename_i different
      rw [sameContract_iff] at different
      have less := lt_of_le_of_ne (splitSorted.1 first (.head _)) (Ne.symm different)
      apply pairwise_cons.mpr
      constructor
      · intro other mem
        rcases mem_cons.mp mem with rfl | later
        · exact less
        · exact less.trans_le (splitRest.1 other ((dedupFrom_sublist _ _).subset later))
      · exact ih splitSorted.2

theorem dedupContracts_ascends
    (sorted : candidates.Pairwise fun left right => candidateKey left ≤ candidateKey right) :
    (dedupContracts candidates).Pairwise
      fun left right => candidateKey left < candidateKey right := by
  cases candidates with
  | nil => exact List.Pairwise.nil
  | cons => exact dedupFrom_ascends sorted

theorem dedupContracts_sublist (candidates : List McpManifestTool) :
    (dedupContracts candidates).Sublist candidates := by
  cases candidates with
  | nil => exact List.Sublist.refl _
  | cons first rest => exact (dedupFrom_sublist first rest).cons_cons first

theorem key_mem_dedupFrom {kept : McpManifestTool} {rest : List McpManifestTool}
    (mem : candidate ∈ kept :: rest) :
    ∃ other ∈ kept :: dedupFrom kept rest, candidateKey other = candidateKey candidate := by
  induction rest generalizing kept with
  | nil => exact ⟨candidate, mem, rfl⟩
  | cons _ _ ih =>
    rw [dedupFrom]
    split
    · rename_i same
      rw [sameContract_iff] at same
      rcases mem_cons.mp mem with rfl | inRest
      · exact ⟨candidate, .head _, rfl⟩
      · rcases mem_cons.mp inRest with rfl | later
        · exact ⟨kept, .head _, same.symm⟩
        · exact ih (.tail _ later)
    · rcases mem_cons.mp mem with rfl | inRest
      · exact ⟨candidate, .head _, rfl⟩
      · obtain ⟨other, hOther, same⟩ := ih inRest
        exact ⟨other, .tail _ hOther, same⟩

theorem key_mem_dedupContracts (mem : candidate ∈ candidates) :
    ∃ other ∈ dedupContracts candidates, candidateKey other = candidateKey candidate := by
  cases candidates with
  | nil => cases mem
  | cons => exact key_mem_dedupFrom mem

def withName (preliminaryCounts : String → Nat) (candidate : McpManifestTool) : McpManifestTool :=
  { candidate with exposedName := exposedNameOf preliminaryCounts candidate }

theorem assignNames_ok_iff {builtinNames used : List String} {preliminaryCounts : String → Nat}
    {named : List McpManifestTool} :
    assignNames builtinNames preliminaryCounts candidates used = .ok named ↔
      (∀ candidate ∈ candidates, exposedNameOf preliminaryCounts candidate ∉ builtinNames ∧
        exposedNameOf preliminaryCounts candidate ∉ used) ∧
      (candidates.map (exposedNameOf preliminaryCounts)).Nodup ∧
      named = candidates.map (withName preliminaryCounts) := by
  induction candidates generalizing used named with
  | nil => simp [assignNames, eq_comm]
  | cons candidate rest ih =>
    simp only [assignNames, contains_iff_mem, forall_mem_cons, map_cons, nodup_cons]
    split
    · rename_i builtin
      constructor
      · nofun
      · exact fun accepted => absurd builtin accepted.1.1.1
    · rename_i notBuiltin
      split
      · rename_i taken
        constructor
        · nofun
        · exact fun accepted => absurd taken accepted.1.1.2
      · rename_i free
        rw [bind_eq_ok]
        constructor
        · rintro ⟨_, isLater, isOk⟩
          obtain ⟨allowed, distinct, rfl⟩ := ih.mp isLater
          have fresh : exposedNameOf preliminaryCounts candidate ∉
              rest.map (exposedNameOf preliminaryCounts) := by
            intro mem
            obtain ⟨other, hOther, same⟩ := mem_map.mp mem
            exact (allowed other hOther).2 (by simp [same])
          refine ⟨⟨⟨notBuiltin, free⟩, fun other hOther => ?_⟩, ⟨fresh, distinct⟩,
            (Except.ok.inj isOk).symm⟩
          have spared := allowed other hOther
          exact ⟨spared.1, fun mem => spared.2 (.tail _ mem)⟩
        · rintro ⟨⟨-, allowed⟩, ⟨fresh, distinct⟩, rfl⟩
          refine ⟨_, ih.mpr ⟨fun other hOther => ?_, distinct, rfl⟩, rfl⟩
          refine ⟨(allowed other hOther).1, fun mem => ?_⟩
          rcases mem_cons.mp mem with same | inUsed
          · exact fresh (mem_map.mpr ⟨other, hOther, same⟩)
          · exact (allowed other hOther).2 inUsed

def catalogCandidates (sha256Hex : Json → String) (discovered : List DiscoveredTool) :
    List McpManifestTool :=
  dedupContracts (inOrder candidateBefore (discovered.map (candidateOf sha256Hex)))

def catalogName (candidates : List McpManifestTool) : McpManifestTool → String :=
  exposedNameOf (preliminaryCount candidates)

/-- The tools of the inventory of a discovery. -/
def catalogTools (sha256Hex : Json → String) (discovered : List DiscoveredTool) :
    List McpManifestTool :=
  let candidates := catalogCandidates sha256Hex discovered
  inOrder toolBefore (candidates.map (withName (preliminaryCount candidates)))

/-- What a discovery keeps that becomes an inventory. -/
structure Buildable (sha256Hex : Json → String)
    (serverConfigFingerprints : SortedMap String String) (discovered : List DiscoveredTool)
    (builtinNames : List String) : Prop where
  few : discovered.length ≤ maxTools
  accepted : ∀ tool ∈ discovered, tool.Accepted
  agreed : hasConflict (inOrder candidateBefore (discovered.map (candidateOf sha256Hex))) = false
  foreign : ∀ candidate ∈ catalogCandidates sha256Hex discovered,
    catalogName (catalogCandidates sha256Hex discovered) candidate ∉ builtinNames
  distinct : ((catalogCandidates sha256Hex discovered).map
    (catalogName (catalogCandidates sha256Hex discovered))).Nodup
  bounded : validateCatalogBytes (inventoryManifest sha256Hex serverConfigFingerprints
    (catalogTools sha256Hex discovered)) = .ok ()

theorem buildInventoryCatalog_ok_iff {serverConfigFingerprints : SortedMap String String}
    {discovered : List DiscoveredTool} {builtinNames : List String}
    {inventory : McpSessionManifest} :
    buildInventoryCatalog sha256Hex serverConfigFingerprints discovered builtinNames
        = .ok inventory ↔
      Buildable sha256Hex serverConfigFingerprints discovered builtinNames ∧
        inventory = inventoryManifest sha256Hex serverConfigFingerprints
          (catalogTools sha256Hex discovered) := by
  rw [buildInventoryCatalog]
  split
  · rename_i many
    constructor
    · nofun
    · exact fun built => absurd built.1.few many.not_ge
  · rename_i few
    rw [not_lt] at few
    constructor
    · intro built
      obtain ⟨_, isCandidates, built⟩ := bind_eq_ok.mp built
      obtain ⟨accepted, rfl⟩ := canonicalCandidates_ok_iff.mp isCandidates
      dsimp only at built
      split at built
      · cases built
      · rename_i noConflict
        obtain ⟨_, isNamed, built⟩ := bind_eq_ok.mp built
        obtain ⟨allowed, distinct, rfl⟩ := assignNames_ok_iff.mp isNamed
        obtain ⟨_, bounded, isInventory⟩ := bind_eq_ok.mp built
        have foreign := fun candidate mem => (allowed candidate mem).1
        exact ⟨⟨few, accepted, Bool.not_eq_true _ ▸ noConflict, foreign, distinct, bounded⟩,
          (Except.ok.inj isInventory).symm⟩
    · rintro ⟨buildable, rfl⟩
      apply bind_eq_ok.mpr
      refine ⟨_, canonicalCandidates_ok_iff.mpr ⟨buildable.accepted, rfl⟩, ?_⟩
      dsimp only
      rw [buildable.agreed, if_neg Bool.false_ne_true]
      apply bind_eq_ok.mpr
      refine ⟨_, assignNames_ok_iff.mpr ⟨?_, buildable.distinct, rfl⟩, ?_⟩
      · exact fun candidate mem => ⟨buildable.foreign candidate mem, not_mem_nil⟩
      · exact bind_eq_ok.mpr ⟨(), buildable.bounded, rfl⟩

end PiRelay.AgentMcpTypes
