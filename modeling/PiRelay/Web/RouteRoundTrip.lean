import Mathlib.Data.List.TakeDrop
import Mathlib.Data.List.TakeWhile
import PiRelay.Library.Fallible
import PiRelay.Web.WorkspaceRoute

/-! Routes and their URLs: what is serialized is read back as it was, every URL is answered, and
what an answer offers as the canonical URL or for a recovery is read without a correction. -/
namespace PiRelay.Web

open Library List Option

def ValidId (id : CodeUnits) : Prop := routeId (some id) = some id

def ValidScope : WorkspaceRouteScope → Prop
  | .project projectId => ValidId projectId
  | .host => True

def ValidConversation (rootSessionId : RouteId) : RouteConversation → Prop
  | .root => True
  | .agent sessionId => ValidId sessionId ∧ sessionId ≠ rootSessionId

def ValidFocus (rootSessionId : RouteId) : ExecutionFocus → Prop
  | .root => True
  | .delegation delegationId => ValidId delegationId
  | .agent sessionId => ValidId sessionId ∧ sessionId ≠ rootSessionId

def ValidHandoff : Option HandoffReference → Prop
  | none => True
  | some handoff => ValidId handoff.ref

def ValidRoute : WorkspaceRoute → Prop
  | .conversation route =>
    ValidScope route.scope ∧ ValidId route.rootSessionId ∧
      ValidConversation route.rootSessionId route.conversation
  | .execution route =>
    ValidScope route.scope ∧ ValidId route.rootSessionId ∧
      ValidConversation route.rootSessionId route.conversation ∧
        ValidFocus route.rootSessionId route.focus ∧ ValidHandoff route.handoff

theorem routeId_eq_some {value : Option CodeUnits} {id : RouteId}
    (isId : routeId value = some id) : value = some id ∧ ValidId id := by
  cases value with
  | none => cases isId
  | some text =>
    have same : text = id := by
      rw [routeId] at isId
      split at isId
      · cases isId
      · split at isId
        · exact Option.some.inj isId
        · cases isId
    rw [same] at isId ⊢
    exact ⟨rfl, isId⟩

theorem ValidId.isSome_encode {id : CodeUnits} (valid : ValidId id) :
    (encodeURIComponent id).isSome := by
  rw [ValidId, routeId] at valid
  split at valid
  · cases valid
  · split at valid
    · assumption
    · cases valid

variable {value text : CodeUnits} {scope : WorkspaceRouteScope} {done : Unit}
    {rootSessionId : RouteId} {focus : ExecutionFocus} {handoff : Option HandoffReference}
    {route : WorkspaceRoute} {unit separator : UInt16} {segments decoded raw : List CodeUnits}
    {base : ParsedPathBase}

theorem requireRouteId_eq_ok_iff {label : String} {id : RouteId} :
    requireRouteId value label = .ok id ↔ value = id ∧ ValidId id := by
  rw [requireRouteId]
  constructor
  · intro isOk
    split at isOk
    · rename_i validated isId
      cases isOk
      obtain ⟨same, valid⟩ := routeId_eq_some isId
      exact ⟨Option.some.inj same, valid⟩
    · cases isOk
  · intro valid
    obtain ⟨rfl, valid⟩ := valid
    rw [valid]

theorem assertRouteScope_eq_ok_iff : assertRouteScope scope = .ok done ↔ ValidScope scope := by
  cases scope with
  | host => exact iff_of_true rfl trivial
  | project =>
    simp [assertRouteScope, bind_eq_ok, requireRouteId_eq_ok_iff, ValidScope, pure, Except.pure]

theorem assertConversation_eq_ok_iff {conversation : RouteConversation} :
    assertConversation conversation rootSessionId = .ok done ↔
      ValidConversation rootSessionId conversation := by
  cases conversation with
  | root => exact iff_of_true rfl trivial
  | agent =>
    simp [assertConversation, bind_eq_ok, requireRouteId_eq_ok_iff, ValidConversation, pure,
      Except.pure, and_assoc]

theorem assertFocus_eq_ok_iff :
    assertFocus focus rootSessionId = .ok done ↔ ValidFocus rootSessionId focus := by
  cases focus with
  | root => exact iff_of_true rfl trivial
  | delegation =>
    simp [assertFocus, bind_eq_ok, requireRouteId_eq_ok_iff, ValidFocus, pure, Except.pure]
  | agent =>
    simp [assertFocus, bind_eq_ok, requireRouteId_eq_ok_iff, ValidFocus, pure, Except.pure,
      and_assoc]

theorem assertHandoff_eq_ok_iff : assertHandoff handoff = .ok done ↔ ValidHandoff handoff := by
  cases handoff with
  | none => exact iff_of_true rfl trivial
  | some =>
    simp [assertHandoff, bind_eq_ok, requireRouteId_eq_ok_iff, ValidHandoff, pure, Except.pure]

theorem assertWorkspaceRoute_eq_ok_iff :
    assertWorkspaceRoute route = .ok () ↔ ValidRoute route := by
  cases route with
  | conversation =>
    simp [assertWorkspaceRoute, bind_eq_ok, requireRouteId_eq_ok_iff, ValidRoute,
      assertRouteScope_eq_ok_iff, assertConversation_eq_ok_iff, and_assoc]
  | execution =>
    simp [assertWorkspaceRoute, bind_eq_ok, requireRouteId_eq_ok_iff, ValidRoute,
      assertRouteScope_eq_ok_iff, assertConversation_eq_ok_iff, assertFocus_eq_ok_iff,
      assertHandoff_eq_ok_iff, and_assoc]

/-- A percent sign, or what needs no encoding. -/
def isSafe (unit : UInt16) : Bool := unit == 0x25 || isUnreserved unit.toNat

theorem isSafe_ne {other : UInt16} (safe : isSafe unit) (reserved : isSafe other = false) :
    unit ≠ other := by
  rintro rfl
  rw [safe] at reserved
  cases reserved

theorem notMem_of_safe (safe : ∀ unit ∈ text, isSafe unit)
    (reserved : isSafe separator = false) : separator ∉ text :=
  fun mem => isSafe_ne (safe separator mem) reserved rfl

structure Encodes (value encoded : CodeUnits) : Prop where
  decoded : decodeURIComponent encoded = some value
  safe : ∀ unit ∈ encoded, isSafe unit = true

theorem encodeMarks_of_unmarked (unmarked : ∀ unit ∈ text, isMark unit = false) :
    encodeMarks text = text := by
  induction text with
  | nil => rfl
  | cons unit _ ih =>
    rw [encodeMarks, flatMap_cons, unmarked unit mem_cons_self]
    have later := ih (forall_mem_cons.mp unmarked).2
    exact congrArg (unit :: ·) later

theorem isMark_hexDigit {digit : Nat} (isDigit : digit < 16) : isMark (hexDigit digit) = false := by
  have each : ∀ digit < 16, isMark (hexDigit digit) = false := by decide
  exact each digit isDigit

theorem isSafe_of_percent (written : unit = 0x25 ∨ ∃ digit < 16, unit = hexDigit digit) :
    isSafe unit ∧ isMark unit = false := by
  rcases written with rfl | ⟨digit, isDigit, rfl⟩
  · decide
  · rw [isSafe, isUnreserved_hexDigit isDigit, Bool.or_true]
    exact ⟨rfl, isMark_hexDigit isDigit⟩

/-- An escaped scalar stays readable once its marks are encoded. -/
theorem encodeMarks_escape {point : Nat} (scalar : IsScalar point) :
    (∀ rest, PendingPoint.idle.decode (encodeMarks (escape point) ++ rest) =
        (PendingPoint.idle.decode rest).map (utf16 point ++ ·)) ∧
      ∀ unit ∈ encodeMarks (escape point), isSafe unit := by
  by_cases unreserved : isUnreserved point
  · have isAscii := isUnreserved_lt unreserved
    have isUnit : utf16 point = [UInt16.ofNat point] := if_pos (by omega)
    have code : (UInt16.ofNat point).toNat = point :=
      UInt16.toNat_ofNat_of_lt' (by rw [UInt16.size]; omega)
    rw [escape, if_pos unreserved, encodeMarks, flatMap_singleton, code, isUnit]
    by_cases mark : isMark (UInt16.ofNat point)
    · rw [if_pos mark]
      constructor
      · exact PendingPoint.decode_percent (by omega) (PendingPoint.read_ascii isAscii)
      · intro unit mem
        exact (isSafe_of_percent (mem_percent (by omega) mem)).1
    · rw [if_neg mark]
      constructor
      · exact PendingPoint.decode_cons (unit_ne_percent unreserved)
      · intro unit mem
        rw [mem_singleton.mp mem, isSafe, code, unreserved, Bool.or_true]
  · have escaped : escape point = (utf8 point).flatMap percent := if_neg unreserved
    have unmarked : encodeMarks (escape point) = escape point := by
      apply encodeMarks_of_unmarked
      intro unit mem
      rw [escaped] at mem
      exact (isSafe_of_percent (mem_utf8_percent scalar mem)).2
    rw [unmarked]
    constructor
    · exact PendingPoint.decode_escape scalar
    · intro unit mem
      rw [escaped] at mem
      exact (isSafe_of_percent (mem_utf8_percent scalar mem)).1

theorem encodePart_eq_ok (encodable : (encodeURIComponent value).isSome) :
    ∃ encoded, encodePart value = .ok encoded ∧ Encodes value encoded := by
  obtain ⟨_, isWhole⟩ := isSome_iff_exists.mp encodable
  obtain ⟨points, isText, rfl⟩ := map_eq_some_iff.mp isWhole
  obtain ⟨same, scalars⟩ := codePoints_scalar isText
  have isPart : encodePart value =
      .ok (points.flatMap fun point => encodeMarks (escape point)) := by
    rw [encodePart, isWhole]
    exact congrArg Except.ok flatMap_assoc
  refine ⟨_, isPart, ?_, ?_⟩
  · rw [← same]
    apply PendingPoint.decode_flatMap
    intro point mem
    exact (encodeMarks_escape (scalars point mem)).1
  · intro unit mem
    obtain ⟨point, isPoint, written⟩ := mem_flatMap.mp mem
    exact (encodeMarks_escape (scalars point isPoint)).2 unit written

theorem cutAt_of_notMem (absent : separator ∉ text) : cutAt separator text = (text, []) := by
  have keeps : ∀ unit ∈ text, (unit != separator) := by
    intro unit mem
    rw [bne_iff_ne]
    rintro rfl
    exact absent mem
  rw [cutAt, span_eq_takeWhile_dropWhile, takeWhile_eq_self_iff.mpr keeps,
    dropWhile_eq_nil_iff.mpr keeps]

theorem cutAt_append {before : CodeUnits} (absent : separator ∉ before) (after : CodeUnits) :
    cutAt separator (before ++ separator :: after) = (before, separator :: after) := by
  have keeps : ∀ unit ∈ before, (unit != separator) := by
    intro unit mem
    rw [bne_iff_ne]
    rintro rfl
    exact absent mem
  rw [cutAt, span_eq_takeWhile_dropWhile, takeWhile_append_of_pos keeps,
    dropWhile_append_of_pos keeps]
  simp

/-- Nothing, or a question mark and a text behind it. -/
def IsSearch (search : CodeUnits) : Prop :=
  0x23 ∉ search ∧ (search = [] ∨ ∃ raw, search = 0x3F :: raw)

theorem locationParts_url {pathname search : CodeUnits} (noFragment : 0x23 ∉ pathname)
    (noQuery : 0x3F ∉ pathname) (isSearch : IsSearch search) :
    locationParts (.url (pathname ++ search)) = ⟨pathname, search, [], pathname ++ search⟩ := by
  have whole : cutAt 0x23 (pathname ++ search) = (pathname ++ search, []) := by
    apply cutAt_of_notMem
    rw [mem_append, not_or]
    exact ⟨noFragment, isSearch.1⟩
  have parts : cutAt 0x3F (pathname ++ search) = (pathname, search) := by
    rcases isSearch.2 with rfl | ⟨raw, rfl⟩
    · rw [append_nil]
      exact cutAt_of_notMem noQuery
    · exact cutAt_append noQuery raw
  simp only [locationParts, whole, parts]

/-- Each segment behind a slash. -/
def joinPath (segments : List CodeUnits) : CodeUnits := segments.flatMap (0x2F :: ·)

theorem splitOn_joinPath (noSlash : ∀ segment ∈ segments, 0x2F ∉ segment) :
    (joinPath segments).splitOn 0x2F = [] :: segments := by
  have behind : ∀ segment : CodeUnits, 0x2F ∉ segment →
      (segment ++ joinPath segments).splitOn 0x2F = segment :: segments := by
    induction segments with
    | nil =>
      intro segment absent
      rw [joinPath, flatMap_nil, append_nil]
      exact splitOn_eq_singleton absent
    | cons next _ ih =>
      intro segment absent
      have later := ih (forall_mem_cons.mp noSlash).2 next (noSlash next (.head _))
      rw [joinPath, flatMap_cons, cons_append, splitOn_append_cons_self_of_not_mem absent]
      exact congrArg (segment :: ·) later
  exact behind [] not_mem_nil

/-- The segments of a path behind its first slash, as they are written and as they are read. -/
structure ReadsPath (segments decoded : List CodeUnits) : Prop where
  safe : ∀ segment ∈ segments, ∀ unit ∈ segment, isSafe unit = true
  reads : segments.mapM decodeURIComponent = some decoded

theorem ReadsPath.append {others alsoDecoded : List CodeUnits} (path : ReadsPath segments decoded)
    (also : ReadsPath others alsoDecoded) :
    ReadsPath (segments ++ others) (decoded ++ alsoDecoded) where
  safe := forall_mem_append.mpr ⟨path.safe, also.safe⟩
  reads := by
    rw [mapM_append, path.reads, also.reads]
    rfl

theorem ReadsPath.cons {encoded : CodeUnits} (encodes : Encodes value encoded)
    (path : ReadsPath segments decoded) :
    ReadsPath (encoded :: segments) (value :: decoded) where
  safe := forall_mem_cons.mpr ⟨encodes.safe, path.safe⟩
  reads := by
    rw [mapM_cons, encodes.decoded, path.reads]
    rfl

theorem ReadsPath.nil : ReadsPath [] [] where
  safe := by simp
  reads := rfl

/-- Words that need no encoding stand for themselves. -/
def IsWord (text : CodeUnits) : Prop := (text.all fun unit => isUnreserved unit.toNat) = true

instance (text : CodeUnits) : Decidable (IsWord text) :=
  inferInstanceAs (Decidable ((text.all fun unit => isUnreserved unit.toNat) = true))

theorem IsWord.encodes {word : CodeUnits} (isWord : IsWord word) : Encodes word word where
  decoded := by
    apply PendingPoint.decode_plain
    intro mem
    exact absurd (List.all_eq_true.mp isWord 0x25 mem) (by decide)
  safe := by
    intro unit mem
    rw [isSafe, List.all_eq_true.mp isWord unit mem, Bool.or_true]

theorem ReadsPath.word {word : CodeUnits} (isWord : IsWord word)
    (path : ReadsPath segments decoded) : ReadsPath (word :: segments) (word :: decoded) :=
  path.cons isWord.encodes

theorem ReadsPath.notMem_joinPath (path : ReadsPath segments decoded)
    (reserved : isSafe separator = false) (notSlash : separator ≠ 0x2F) :
    separator ∉ joinPath segments := by
  intro mem
  obtain ⟨segment, isSegment, inSegment⟩ := mem_flatMap.mp mem
  rcases mem_cons.mp inSegment with isSlash | written
  · exact notSlash isSlash
  · exact notMem_of_safe (path.safe segment isSegment) reserved written

/-- The segments of the base of a path, and how it is written and read. -/
structure ReadsBase (scope : WorkspaceRouteScope) (rootSessionId : RouteId)
    (segments decoded : List CodeUnits) : Prop where
  path : ReadsPath segments decoded
  sameLength : decoded.length = segments.length
  written : serializePrefix scope rootSessionId = .ok (joinPath segments)
  owned : ∀ others, ownsWorkspacePath (joinPath (segments ++ others)) = true
  base : ∀ others alsoDecoded, parsePathBase ([] :: (segments ++ others))
    ([] :: (decoded ++ alsoDecoded)) = some ⟨scope, rootSessionId, segments.length + 1⟩

theorem owns_joinPath (segment : CodeUnits) (others : List CodeUnits) :
    ownsWorkspacePath (joinPath (units "w" :: segment :: others)) := by
  have isPrefix : units "/w/" <+: joinPath (units "w" :: segment :: others) :=
    ⟨segment ++ joinPath others, by simp [joinPath, units]⟩
  rw [ownsWorkspacePath, isPrefixOf_iff_prefix.mpr isPrefix, Bool.or_true]

theorem readsBase (validScope : ValidScope scope) (validRoot : ValidId rootSessionId) :
    ∃ segments decoded, ReadsBase scope rootSessionId segments decoded := by
  obtain ⟨root, isRoot, encodesRoot⟩ := encodePart_eq_ok validRoot.isSome_encode
  have rootId : routeId (some rootSessionId) = some rootSessionId := validRoot
  cases scope with
  | project projectId =>
    obtain ⟨project, isProject, encodesProject⟩ := encodePart_eq_ok validScope.isSome_encode
    have id : routeId (some projectId) = some projectId := validScope
    refine ⟨[units "w", units "project", project, units "run", root],
      [units "w", units "project", projectId, units "run", rootSessionId],
      .word (by decide) (.word (by decide) (.cons encodesProject
        (.word (by decide) (.cons encodesRoot .nil)))), rfl, ?_, fun _ => owns_joinPath _ _, ?_⟩
    · simp [serializePrefix, isProject, isRoot, joinPath, units, bind, Except.bind]
    · simp [parsePathBase, projectPathBase, id, rootId]
  | host =>
    have notProject : ¬ units "host" = units "project" := by decide
    refine ⟨[units "w", units "host", units "run", root],
      [units "w", units "host", units "run", rootSessionId],
      .word (by decide) (.word (by decide) (.word (by decide) (.cons encodesRoot .nil))), rfl, ?_,
      fun _ => owns_joinPath _ _, ?_⟩
    · simp [serializePrefix, isRoot, joinPath, units, bind, Except.bind]
    · simp [parsePathBase, projectPathBase, hostPathBase, rootId, notProject]

theorem parseLocation_base (reads : ReadsBase scope rootSessionId segments decoded)
    {suffix suffixDecoded : List CodeUnits} (suffixPath : ReadsPath suffix suffixDecoded)
    (search hash url : CodeUnits) :
    parseLocation ⟨joinPath (segments ++ suffix), search, hash, url⟩ =
      parseDestination ⟨scope, rootSessionId, segments.length + 1⟩ suffix suffixDecoded
        ⟨joinPath (segments ++ suffix), search, hash, url⟩ := by
  have path := reads.path.append suffixPath
  have rawSegments : (joinPath (segments ++ suffix)).splitOn 0x2F = [] :: (segments ++ suffix) :=
    splitOn_joinPath fun segment mem => notMem_of_safe (path.safe segment mem) (by decide)
  have decodedSegments : decodePathSegments ([] :: (segments ++ suffix)) =
      some ([] :: (decoded ++ suffixDecoded)) := by
    rw [decodePathSegments, mapM_cons, path.reads]
    rfl
  simp only [parseLocation, reads.owned, Bool.not_true, Bool.false_eq_true, if_false, rawSegments,
    decodedSegments, reads.base, drop_succ_cons, drop_left]
  rw [← reads.sameLength, drop_left]

theorem ParsedQuery.add_of_fresh {query : ParsedQuery} {name : CodeUnits}
    (fresh : name ∉ query.values.map (·.1)) (value : CodeUnits) :
    query.add name value = ⟨query.values ++ [(name, [value])]⟩ := by
  have absent : query.values.lookup name = none := by
    rw [lookup_eq_none_iff]
    intro entry mem
    rw [bne_iff_ne]
    rintro rfl
    exact fresh (mem_map_of_mem mem)
  simp [ParsedQuery.add, absent]

theorem decodeQueryPart_of_encodes {encoded : CodeUnits} (encodes : Encodes value encoded) :
    decodeQueryPart encoded = some value := by
  have noPlus : 0x2B ∉ encoded := notMem_of_safe encodes.safe (by decide)
  have same : encoded.map (fun unit => if unit = 0x2B then 0x20 else unit) = encoded := by
    have keeps : ∀ unit ∈ encoded, (if unit = 0x2B then 0x20 else unit) = id unit := by
      intro unit mem
      rw [if_neg]
      · rfl
      · rintro rfl
        exact noPlus mem
    rw [map_congr_left keeps, List.map_id]
  rw [decodeQueryPart, same, encodes.decoded]

/-- A parameter whose name is a word and whose value can be encoded. -/
structure WritableParameter (parameter : CodeUnits × CodeUnits) : Prop where
  word : IsWord parameter.1
  encodable : (encodeURIComponent parameter.2).isSome = true

theorem encodeParameter_eq_ok {parameter : CodeUnits × CodeUnits}
    (writable : WritableParameter parameter) :
    ∃ pair, encodeParameter parameter = .ok pair ∧ 0x26 ∉ pair ∧ 0x23 ∉ pair ∧ pair ≠ [] ∧
      ∀ query : ParsedQuery, query.addPair pair = some (query.add parameter.1 parameter.2) := by
  obtain ⟨encoded, isEncoded, encodes⟩ := encodePart_eq_ok writable.encodable
  have name := writable.word.encodes
  have absent : ∀ separator, isSafe separator = false → separator ≠ 0x3D →
      separator ∉ parameter.1 ++ 0x3D :: encoded := by
    intro separator reserved notEquals
    rw [mem_append, mem_cons, not_or, not_or]
    exact ⟨notMem_of_safe name.safe reserved, notEquals, notMem_of_safe encodes.safe reserved⟩
  refine ⟨parameter.1 ++ 0x3D :: encoded, ?_, absent _ (by decide) (by decide),
    absent _ (by decide) (by decide), by simp, ?_⟩
  · rw [encodeParameter, isEncoded, show units "=" = [0x3D] by decide]
    simp [bind, Except.bind]
  · intro query
    have noEquals : 0x3D ∉ parameter.1 := notMem_of_safe name.safe (by decide)
    simp only [ParsedQuery.addPair, cutAt_append noEquals, decodeQueryPart_of_encodes name,
      tail_cons, decodeQueryPart_of_encodes encodes]
    rfl

def queryOf (parameters : List (CodeUnits × CodeUnits)) : ParsedQuery :=
  ⟨parameters.map fun parameter => (parameter.1, [parameter.2])⟩

theorem foldlM_addPair {parameters : List (CodeUnits × CodeUnits)}
    (before : List (CodeUnits × CodeUnits))
    (writable : ∀ parameter ∈ parameters, WritableParameter parameter)
    (distinct : ((before ++ parameters).map (·.1)).Nodup) :
    ∃ pairs, parameters.mapM encodeParameter = .ok pairs ∧
      (∀ pair ∈ pairs, 0x26 ∉ pair ∧ 0x23 ∉ pair ∧ pair ≠ []) ∧
        pairs.length = parameters.length ∧
          pairs.foldlM ParsedQuery.addPair (queryOf before) =
            some (queryOf (before ++ parameters)) := by
  induction parameters generalizing before with
  | nil => exact ⟨[], rfl, by simp, rfl, by simp⟩
  | cons parameter parameters ih =>
    obtain ⟨pair, isPair, noAmpersand, noFragment, nonempty, adds⟩ :=
      encodeParameter_eq_ok (writable parameter (.head _))
    rw [append_cons] at distinct
    obtain ⟨pairs, arePairs, clean, sameLength, reads⟩ :=
      ih _ (forall_mem_cons.mp writable).2 distinct
    have fresh : parameter.1 ∉ (queryOf before).values.map (·.1) := by
      rw [map_append, nodup_append, map_append, nodup_append] at distinct
      intro mem
      apply distinct.1.2.2 parameter.1 _ parameter.1 (by simp) rfl
      simpa [queryOf] using mem
    refine ⟨pair :: pairs, ?_, ?_, by simp [sameLength], ?_⟩
    · rw [mapM_cons, isPair, arePairs]
      rfl
    · exact forall_mem_cons.mpr ⟨⟨noAmpersand, noFragment, nonempty⟩, clean⟩
    · have behind : (⟨(queryOf before).values ++ [(parameter.1, [parameter.2])]⟩ : ParsedQuery) =
          queryOf (before ++ [parameter]) := by
        simp [queryOf]
      have whole := append_cons before parameter parameters
      rw [foldlM_cons, adds, ParsedQuery.add_of_fresh fresh, behind, whole, ← reads]
      rfl

theorem notMem_intercalate {separator : CodeUnits} {texts : List CodeUnits}
    (notSeparator : unit ∉ separator) (absent : ∀ text ∈ texts, unit ∉ text) :
    unit ∉ separator.intercalate texts := by
  induction texts with
  | nil => exact not_mem_nil
  | cons text texts ih =>
    have here := absent text (.head _)
    have later := ih (forall_mem_cons.mp absent).2
    by_cases isLast : texts = []
    · rw [isLast, intercalate_singleton]
      exact here
    · rw [intercalate_cons_of_ne_nil isLast, mem_append, mem_append]
      simp [here, later, notSeparator]

theorem serializeSearch_eq_ok {parameters : List (CodeUnits × CodeUnits)}
    (writable : ∀ parameter ∈ parameters, WritableParameter parameter)
    (distinct : (parameters.map (·.1)).Nodup) :
    ∃ search, serializeSearch parameters = .ok search ∧ IsSearch search ∧
      parseQuery search = some (queryOf parameters) := by
  obtain ⟨pairs, arePairs, clean, sameLength, reads⟩ := foldlM_addPair [] writable distinct
  cases parameters with
  | nil => exact ⟨[], rfl, ⟨not_mem_nil, .inl rfl⟩, rfl⟩
  | cons =>
    have notEmpty : pairs ≠ [] := by
      intro isEmpty
      rw [isEmpty] at sameLength
      cases sameLength
    have split : ([0x26].intercalate pairs).splitOn 0x26 = pairs :=
      splitOn_intercalate 0x26 (fun pair mem => (clean pair mem).1) notEmpty
    have rawNotEmpty : [0x26].intercalate pairs ≠ [] := by
      intro isEmpty
      rw [isEmpty] at split
      rw [← split] at clean
      exact (clean [] (by simp)).2.2 rfl
    refine ⟨0x3F :: [0x26].intercalate pairs, ?_, ⟨?_, .inr ⟨_, rfl⟩⟩, ?_⟩
    · rw [serializeSearch, arePairs]
      rfl
    · rw [mem_cons, not_or]
      exact ⟨by decide, notMem_intercalate (by decide) fun pair mem => (clean pair mem).2.1⟩
    · simp only [parseQuery, head?_cons, if_true, tail_cons]
      rw [if_neg (by simpa using rawNotEmpty), split]
      exact reads

def ConversationRoute.sessionId (route : ConversationRoute) : RouteId :=
  match route.conversation with
  | .root => route.rootSessionId
  | .agent sessionId => sessionId

def ExecutionRoute.parameters (route : ExecutionRoute) : List (CodeUnits × CodeUnits) :=
  conversationParameters route.conversation ++ focusParameters route.focus ++
    handoffParameters route.handoff

theorem ConversationRoute.validId {route : ConversationRoute}
    (valid : ValidRoute (.conversation route)) : ValidId route.sessionId := by
  obtain ⟨-, validRoot, validConversation⟩ := valid
  rw [ConversationRoute.sessionId]
  cases isConversation : route.conversation with
  | root => exact validRoot
  | agent =>
    rw [isConversation] at validConversation
    exact validConversation.1

theorem ValidId.writable {id name : CodeUnits} (valid : ValidId id) (isWord : IsWord name)
    {kind : CodeUnits} (isAscii : (kind.all fun unit => decide (unit.toNat < 0x80))) :
    WritableParameter (name, kind ++ id) where
  word := isWord
  encodable := by
    rw [encodeURIComponent_isSome_append]
    · exact valid.isSome_encode
    · intro unit mem
      exact of_decide_eq_true (List.all_eq_true.mp isAscii unit mem)

theorem ExecutionRoute.writable {route : ExecutionRoute} (valid : ValidRoute (.execution route)) :
    ∀ parameter ∈ route.parameters, WritableParameter parameter := by
  obtain ⟨-, -, validConversation, validFocus, validHandoff⟩ := valid
  rw [ExecutionRoute.parameters, forall_mem_append, forall_mem_append]
  refine ⟨⟨?_, ?_⟩, ?_⟩
  · cases isConversation : route.conversation with
    | root => simp [conversationParameters]
    | agent =>
      rw [isConversation] at validConversation
      rw [conversationParameters, forall_mem_singleton]
      exact validConversation.1.writable (by decide) (by decide)
  · cases isFocus : route.focus with
    | root => simp [focusParameters]
    | delegation =>
      rw [isFocus] at validFocus
      rw [focusParameters, forall_mem_singleton]
      exact ValidId.writable validFocus (by decide) (by decide)
    | agent =>
      rw [isFocus] at validFocus
      rw [focusParameters, forall_mem_singleton]
      exact validFocus.1.writable (by decide) (by decide)
  · cases isHandoff : route.handoff with
    | none => simp [handoffParameters]
    | some =>
      rw [isHandoff] at validHandoff
      rw [handoffParameters, forall_mem_singleton]
      have noKind : (([] : CodeUnits).all fun unit => decide (unit.toNat < 0x80)) := rfl
      exact ValidId.writable validHandoff (by decide) noKind

theorem ExecutionRoute.names (route : ExecutionRoute) : (route.parameters.map (·.1)).Sublist
    [units "conversation", units "focus", units "handoff"] := by
  have conversation : ((conversationParameters route.conversation).map (·.1)).Sublist
      [units "conversation"] := by
    cases route.conversation <;> simp [conversationParameters]
  have focus : ((focusParameters route.focus).map (·.1)).Sublist [units "focus"] := by
    cases route.focus <;> simp [focusParameters]
  have handoff : ((handoffParameters route.handoff).map (·.1)).Sublist [units "handoff"] := by
    cases route.handoff <;> simp [handoffParameters]
  rw [ExecutionRoute.parameters, map_append, map_append]
  exact (conversation.append focus).append handoff

theorem ExecutionRoute.distinct (route : ExecutionRoute) : (route.parameters.map (·.1)).Nodup :=
  route.names.nodup (by decide)

theorem serialize_conversation {route : ConversationRoute}
    (valid : ValidRoute (.conversation route))
    (reads : ReadsBase route.scope route.rootSessionId segments decoded) :
    ∃ encoded, Encodes route.sessionId encoded ∧
      serializeWorkspaceRoute (.conversation route) =
        .ok (joinPath (segments ++ [units "conversation", encoded])) := by
  obtain ⟨encoded, isEncoded, encodes⟩ := encodePart_eq_ok (route.validId valid).isSome_encode
  have accepted := assertWorkspaceRoute_eq_ok_iff.mpr valid
  have written : serializeWorkspaceRoute (.conversation route) =
      .ok (joinPath segments ++ units "/conversation/" ++ encoded) :=
    bind_eq_ok.mpr ⟨(), accepted, bind_eq_ok.mpr ⟨_, reads.written,
      bind_eq_ok.mpr ⟨encoded, isEncoded, rfl⟩⟩⟩
  refine ⟨encoded, encodes, ?_⟩
  rw [written]
  simp [joinPath, units]

theorem serialize_execution {route : ExecutionRoute} (valid : ValidRoute (.execution route))
    (reads : ReadsBase route.scope route.rootSessionId segments decoded) :
    ∃ search, IsSearch search ∧ parseQuery search = some (queryOf route.parameters) ∧
      serializeWorkspaceRoute (.execution route) =
        .ok (joinPath (segments ++ [units "execution", route.view.name]) ++ search) := by
  obtain ⟨search, isWritten, isSearch, isRead⟩ :=
    serializeSearch_eq_ok (route.writable valid) route.distinct
  have accepted := assertWorkspaceRoute_eq_ok_iff.mpr valid
  have written : serializeWorkspaceRoute (.execution route) =
      .ok (joinPath segments ++ units "/execution/" ++ route.view.name ++ search) :=
    bind_eq_ok.mpr ⟨(), accepted, bind_eq_ok.mpr ⟨_, reads.written,
      bind_eq_ok.mpr ⟨search, isWritten, rfl⟩⟩⟩
  refine ⟨search, isSearch, isRead, ?_⟩
  rw [written]
  simp [joinPath, units]

theorem serialize_eq_ok (valid : ValidRoute route) :
    ∃ url, serializeWorkspaceRoute route = .ok url := by
  cases route with
  | conversation =>
    obtain ⟨segments, decoded, reads⟩ := readsBase valid.1 valid.2.1
    obtain ⟨_, -, isWritten⟩ := serialize_conversation valid reads
    exact ⟨_, isWritten⟩
  | execution =>
    obtain ⟨segments, decoded, reads⟩ := readsBase valid.1 valid.2.1
    obtain ⟨_, -, -, isWritten⟩ := serialize_execution valid reads
    exact ⟨_, isWritten⟩

/-- The URL matches the route, without a warning and without a correction. -/
def ReadsBack (url : CodeUnits) (route : WorkspaceRoute) : Prop :=
  parseWorkspaceRoute (.url url) = .ok (.route ⟨route, url, [], none⟩)

theorem matchedRoute_canonical {url : CodeUnits}
    (isWritten : serializeWorkspaceRoute route = .ok url) (pathname search hash : CodeUnits) :
    matchedRoute route ⟨pathname, search, hash, url⟩ [] [] = .ok ⟨route, url, [], none⟩ := by
  rw [matchedRoute, isWritten]
  simp [bind, Except.bind]

/-- The URL is that of a valid route. -/
abbrev IsWritten (url : CodeUnits) : Prop :=
  ∃ route, ValidRoute route ∧ serializeWorkspaceRoute route = .ok url

theorem recoveryForRootConversation_eq_ok (base : ParsedPathBase)
    (validScope : ValidScope base.scope) (validRoot : ValidId base.rootSessionId) :
    ∃ recovery, recoveryForRootConversation base = .ok recovery ∧ IsWritten recovery.url := by
  have valid : ValidRoute (.conversation ⟨base.scope, base.rootSessionId, .root⟩) :=
    ⟨validScope, validRoot, trivial⟩
  obtain ⟨url, isWritten⟩ := serialize_eq_ok valid
  have route : rootConversationRoute base.scope base.rootSessionId =
      .ok ⟨base.scope, base.rootSessionId, .root⟩ :=
    bind_eq_ok.mpr ⟨(), assertRouteScope_eq_ok_iff.mpr validScope,
      bind_eq_ok.mpr ⟨base.rootSessionId, requireRouteId_eq_ok_iff.mpr ⟨rfl, validRoot⟩, rfl⟩⟩
  exact ⟨⟨.rootConversation, url⟩, bind_eq_ok.mpr ⟨_, route, bind_eq_ok.mpr ⟨url, isWritten, rfl⟩⟩,
    _, valid, isWritten⟩

theorem rootOutlineRecovery_eq_ok (base : ParsedPathBase) (validScope : ValidScope base.scope)
    (validRoot : ValidId base.rootSessionId) :
    ∃ recovery, rootOutlineRecovery base = .ok recovery ∧ IsWritten recovery.url := by
  have valid : ValidRoute
      (.execution ⟨base.scope, base.rootSessionId, .overview, .root, .root, none⟩) :=
    ⟨validScope, validRoot, trivial, trivial, trivial⟩
  obtain ⟨url, isWritten⟩ := serialize_eq_ok valid
  exact ⟨⟨.rootOutline, url⟩, bind_eq_ok.mpr ⟨url, isWritten, rfl⟩, _, valid, isWritten⟩

theorem readsBack_conversation {route : ConversationRoute}
    (valid : ValidRoute (.conversation route)) :
    ∃ url, serializeWorkspaceRoute (.conversation route) = .ok url ∧
      ReadsBack url (.conversation route) := by
  obtain ⟨segments, _, reads⟩ := readsBase valid.1 valid.2.1
  obtain ⟨encoded, encodes, isWritten⟩ := serialize_conversation valid reads
  have suffix : ReadsPath [units "conversation", encoded] [units "conversation", route.sessionId] :=
    .word (by decide) (.cons encodes .nil)
  have path := reads.path.append suffix
  have noSearch : IsSearch [] := ⟨not_mem_nil, .inl rfl⟩
  have location := locationParts_url (path.notMem_joinPath (by decide) (by decide))
    (path.notMem_joinPath (by decide) (by decide)) noSearch
  rw [append_nil] at location
  have isId : routeId (some route.sessionId) = some route.sessionId := route.validId valid
  obtain ⟨_, recovers, -⟩ := recoveryForRootConversation_eq_ok
    ⟨route.scope, route.rootSessionId, segments.length + 1⟩ valid.1 valid.2.1
  have sameConversation : (if route.sessionId = route.rootSessionId then RouteConversation.root
      else .agent route.sessionId) = route.conversation := by
    have validConversation := valid.2.2
    rw [ConversationRoute.sessionId]
    cases isConversation : route.conversation with
    | root => exact if_pos rfl
    | agent =>
      rw [isConversation] at validConversation
      exact if_neg validConversation.2
  refine ⟨_, isWritten, ?_⟩
  rw [ReadsBack, parseWorkspaceRoute, location, parseLocation_base reads suffix, parseDestination,
    recovers]
  simp [bind, Except.bind, parseQuery, isId, sameConversation, unsupportedQueryWarnings,
    matchedRoute_canonical isWritten]

theorem splitTypedReference_append (kind : CodeUnits) (nonempty : kind ≠ [])
    (noColon : 0x3A ∉ kind) (id : CodeUnits) :
    splitTypedReference (kind ++ 0x3A :: id) = some (kind, id) := by
  rw [splitTypedReference, cutAt_append noColon]
  cases kind with
  | nil => exact absurd rfl nonempty
  | cons => rfl

theorem splitTypedReference_agent (id : CodeUnits) :
    splitTypedReference (units "agent:" ++ id) = some (units "agent", id) :=
  splitTypedReference_append (units "agent") (by decide) (by decide) id

theorem splitTypedReference_delegation (id : CodeUnits) :
    splitTypedReference (units "delegation:" ++ id) = some (units "delegation", id) :=
  splitTypedReference_append (units "delegation") (by decide) (by decide) id

theorem executionConversation_parameters {conversation : RouteConversation}
    (valid : ValidConversation rootSessionId conversation) :
    executionConversation ((conversationParameters conversation).map (·.2)) rootSessionId =
      (conversation, [], []) := by
  cases conversation with
  | root => rfl
  | agent sessionId =>
    have isId : routeId (some sessionId) = some sessionId := valid.1
    have notRoot : units "agent" ≠ units "root" := by decide
    simp [conversationParameters, executionConversation, parseConversationReference,
      splitTypedReference_agent, isId, notRoot, valid.2]

theorem executionFocus_parameters (valid : ValidFocus rootSessionId focus) :
    executionFocus ((focusParameters focus).map (·.2)) rootSessionId = .ok (focus, []) := by
  cases focus with
  | root => rfl
  | delegation delegationId =>
    have isId : routeId (some delegationId) = some delegationId := valid
    have notRoot : units "delegation" ≠ units "root" := by decide
    simp [focusParameters, executionFocus, parseFocusReference, splitTypedReference_delegation,
      isId, notRoot]
  | agent sessionId =>
    have isId : routeId (some sessionId) = some sessionId := valid.1
    have notRoot : units "agent" ≠ units "root" := by decide
    have notDelegation : units "agent" ≠ units "delegation" := by decide
    simp [focusParameters, executionFocus, parseFocusReference, splitTypedReference_agent, isId,
      notRoot, notDelegation, valid.2]

theorem executionHandoff_parameters (valid : ValidHandoff handoff) :
    executionHandoff ((handoffParameters handoff).map (·.2)) = .ok handoff := by
  cases handoff with
  | none => rfl
  | some handoff =>
    have isId : routeId (some handoff.ref) = some handoff.ref := valid
    simp [handoffParameters, executionHandoff, isId]

theorem queryOf_get (route : ExecutionRoute) :
    (queryOf route.parameters).get (units "conversation") =
        (conversationParameters route.conversation).map (·.2) ∧
      (queryOf route.parameters).get (units "focus") = (focusParameters route.focus).map (·.2) ∧
      (queryOf route.parameters).get (units "handoff") =
        (handoffParameters route.handoff).map (·.2) ∧
      (queryOf route.parameters).get (units "overview") = [] := by
  rw [ExecutionRoute.parameters]
  cases route.conversation <;> cases route.focus <;> cases route.handoff <;>
    simp [queryOf, ParsedQuery.get, conversationParameters, focusParameters, handoffParameters,
      lookup_cons, units]

theorem executionRoute_parameters {route : ExecutionRoute} (valid : ValidRoute (.execution route))
    (offset : Nat) :
    executionRoute ⟨route.scope, route.rootSessionId, offset⟩ route.view
      (queryOf route.parameters) [] = .ok (route, [], []) := by
  obtain ⟨-, -, validConversation, validFocus, validHandoff⟩ := valid
  obtain ⟨conversation, focus, handoff, overview⟩ := queryOf_get route
  have noneUnsupported : unsupportedQueryWarnings (queryOf route.parameters) []
      supportedQueryParameters = [] := by
    have supported : (route.parameters.map (·.1)).filter (!supportedQueryParameters.contains ·) =
        [] := by
      rw [filter_eq_nil_iff]
      intro name mem
      have isSupported := route.names.subset mem
      simp only [mem_cons, not_mem_nil, or_false] at isSupported
      rcases isSupported with rfl | rfl | rfl <;> decide
    have keys : (queryOf route.parameters).values.map (·.1) = route.parameters.map (·.1) := by
      simp [queryOf, Function.comp_def]
    rw [unsupportedQueryWarnings]
    rw [keys, supported]
    rfl
  simp [executionRoute, conversation, focus, handoff, overview, noneUnsupported, executionOverview,
    executionConversation_parameters validConversation, executionFocus_parameters validFocus,
    executionHandoff_parameters validHandoff, bind, Except.bind]

theorem executionView_name (view : ExecutionView) : executionView view.name = some view := by
  cases view <;> decide

theorem readsBack_execution {route : ExecutionRoute} (valid : ValidRoute (.execution route)) :
    ∃ url, serializeWorkspaceRoute (.execution route) = .ok url ∧
      ReadsBack url (.execution route) := by
  obtain ⟨segments, _, reads⟩ := readsBase valid.1 valid.2.1
  obtain ⟨_, isSearch, isRead, isWritten⟩ := serialize_execution valid reads
  have viewWord : IsWord route.view.name := by cases route.view <;> decide
  have suffix : ReadsPath [units "execution", route.view.name]
      [units "execution", route.view.name] := .word (by decide) (.word viewWord .nil)
  have path := reads.path.append suffix
  have location := locationParts_url (path.notMem_joinPath (by decide) (by decide))
    (path.notMem_joinPath (by decide) (by decide)) isSearch
  obtain ⟨_, recovers, -⟩ := recoveryForRootConversation_eq_ok
    ⟨route.scope, route.rootSessionId, segments.length + 1⟩ valid.1 valid.2.1
  have notConversation : units "execution" ≠ units "conversation" := by decide
  refine ⟨_, isWritten, ?_⟩
  rw [ReadsBack, parseWorkspaceRoute, location, parseLocation_base reads suffix, parseDestination,
    recovers]
  simp [bind, Except.bind, notConversation, executionView_name, isRead, parseExecutionRoute,
    executionRoute_parameters valid, matchedRoute_canonical isWritten]

theorem readsBack_of_serialize {url : CodeUnits} (valid : ValidRoute route)
    (isWritten : serializeWorkspaceRoute route = .ok url) : ReadsBack url route := by
  have readsBack : ∃ url, serializeWorkspaceRoute route = .ok url ∧ ReadsBack url route := by
    cases route with
    | conversation => exact readsBack_conversation valid
    | execution => exact readsBack_execution valid
  obtain ⟨other, alsoWritten, reads⟩ := readsBack
  obtain rfl := Except.ok.inj (alsoWritten.symm.trans isWritten)
  exact reads

variable (location : ParsedLocation)

/-- A match carries a valid route with its URL, and a recovery leads to a valid route. -/
def Sound : WorkspaceRouteParseResult → Prop
  | .none => True
  | .route matched =>
    ValidRoute matched.route ∧ serializeWorkspaceRoute matched.route = .ok matched.canonicalUrl ∧
      (matched.correction = none ↔ location.requestedUrl = matched.canonicalUrl)
  | .unavailable owned =>
    ∀ recovery, owned.backTo = some recovery →
      ∃ route, ValidRoute route ∧ serializeWorkspaceRoute route = .ok recovery.url

/-- Nothing is thrown, and the answer is sound. -/
def Answers (parsed : Except Thrown WorkspaceRouteParseResult) : Prop :=
  ∃ result, parsed = .ok result ∧ Sound location result

theorem answers_route (valid : ValidRoute route) (location : ParsedLocation)
    (warnings : List WorkspaceRouteWarning) (reasons : List RouteCorrectionReason) :
    Answers location (do
      let matched ← matchedRoute route location warnings reasons
      .ok (.route matched)) := by
  obtain ⟨url, isWritten⟩ := serialize_eq_ok valid
  refine ⟨_, bind_eq_ok.mpr ⟨_, bind_eq_ok.mpr ⟨url, isWritten, rfl⟩, rfl⟩, valid, isWritten, ?_⟩
  simp

theorem answers_unavailable {recovery : WorkspaceRouteRecovery} (leads : IsWritten recovery.url)
    (location : ParsedLocation) (issue : WorkspaceRouteUnavailableIssue) (message : String) :
    Answers location
      (.ok (.unavailable ⟨issue, message, location.requestedUrl, some recovery⟩)) := by
  refine ⟨_, rfl, ?_⟩
  intro other isOther
  cases isOther
  exact leads

theorem parseConversationReference_agent {sessionId : RouteId}
    (isAgent : parseConversationReference value rootSessionId = some (.agent sessionId)) :
    ValidId sessionId ∧ sessionId ≠ rootSessionId := by
  simp only [parseConversationReference, bind_eq_bind, bind_eq_some_iff] at isAgent
  obtain ⟨_, -, _, isId, refers⟩ := isAgent
  split_ifs at refers with isRoot same agent
  · cases refers
  · cases refers
  · cases refers
    exact ⟨(routeId_eq_some isId).2, agent.2⟩

theorem executionConversation_valid (values : List CodeUnits) (rootSessionId : RouteId) :
    ValidConversation rootSessionId (executionConversation values rootSessionId).1 := by
  rw [executionConversation.eq_def]
  split
  · trivial
  · split
    · trivial
    · trivial
    · trivial
    · rename_i sessionId isAgent
      exact parseConversationReference_agent isAgent
  · trivial

theorem parseFocusReference_valid (isFocus : parseFocusReference value rootSessionId = some focus) :
    ValidFocus rootSessionId focus := by
  simp only [parseFocusReference, bind_eq_bind, bind_eq_some_iff] at isFocus
  obtain ⟨_, -, _, isId, refers⟩ := isFocus
  split_ifs at refers with isRoot same delegation agent
  · cases refers
    trivial
  · cases refers
    exact (routeId_eq_some isId).2
  · cases refers
    exact ⟨(routeId_eq_some isId).2, agent.2⟩

theorem executionFocus_valid {values : List CodeUnits} {reasons : List RouteCorrectionReason}
    (isFocus : executionFocus values rootSessionId = .ok (focus, reasons)) :
    ValidFocus rootSessionId focus := by
  rw [executionFocus.eq_def] at isFocus
  split at isFocus
  · cases isFocus
    trivial
  · split at isFocus
    · cases isFocus
    · cases isFocus
      trivial
    · rename_i isReference
      cases isFocus
      exact parseFocusReference_valid isReference
  · cases isFocus

theorem executionHandoff_valid {values : List CodeUnits}
    (isHandoff : executionHandoff values = .ok handoff) : ValidHandoff handoff := by
  rw [executionHandoff.eq_def] at isHandoff
  split at isHandoff
  · cases isHandoff
    trivial
  · split at isHandoff
    · rename_i isId
      cases isHandoff
      exact (routeId_eq_some isId).2
    · cases isHandoff
  · cases isHandoff

section

variable (validScope : ValidScope base.scope)
include validScope

section

variable (validRoot : ValidId base.rootSessionId)
include validRoot

theorem executionRoute_valid {view : ExecutionView} {query : ParsedQuery} {hash : CodeUnits}
    {route : ExecutionRoute} {warnings : List WorkspaceRouteWarning}
    {reasons : List RouteCorrectionReason}
    (isRoute : executionRoute base view query hash = .ok (route, warnings, reasons)) :
    ValidRoute (.execution route) := by
  obtain ⟨⟨_, _⟩, isFocus, isRoute⟩ := bind_eq_ok.mp isRoute
  obtain ⟨_, isHandoff, isRoute⟩ := bind_eq_ok.mp isRoute
  obtain ⟨_, -, isRoute⟩ := bind_eq_ok.mp isRoute
  cases isRoute
  exact ⟨validScope, validRoot, executionConversation_valid _ _, executionFocus_valid isFocus,
    executionHandoff_valid isHandoff⟩

theorem parseExecutionRoute_answers (view : ExecutionView) (query : ParsedQuery)
    (location : ParsedLocation) :
    Answers location (parseExecutionRoute base view query location) := by
  rw [parseExecutionRoute]
  split
  · obtain ⟨_, recovers, leads⟩ := rootOutlineRecovery_eq_ok base validScope validRoot
    rw [recovers]
    exact answers_unavailable leads location _ _
  · rename_i route warnings reasons isRoute
    exact answers_route (executionRoute_valid validScope validRoot isRoute) location _ _

theorem parseDestination_answers (suffix decoded : List CodeUnits) (location : ParsedLocation) :
    Answers location (parseDestination base suffix decoded location) := by
  obtain ⟨recovery, recovers, leads⟩ := recoveryForRootConversation_eq_ok base validScope validRoot
  rw [parseDestination, recovers]
  split
  · split
    · exact answers_unavailable leads location _ _
    · split
      · exact answers_unavailable leads location _ _
      · rename_i sessionId isId
        split
        · exact answers_unavailable leads location _ _
        · rename_i query isQuery
          have valid : ValidRoute (.conversation ⟨base.scope, base.rootSessionId,
              if sessionId = base.rootSessionId then .root else .agent sessionId⟩) := by
            refine ⟨validScope, validRoot, ?_⟩
            by_cases isRoot : sessionId = base.rootSessionId
            · rw [if_pos isRoot]
              trivial
            · rw [if_neg isRoot]
              exact ⟨(routeId_eq_some isId).2, isRoot⟩
          exact answers_route valid location _ _
  · split
    · exact answers_unavailable leads location _ _
    · split
      · obtain ⟨_, recovers, leads⟩ := rootOutlineRecovery_eq_ok base validScope validRoot
        rw [recovers]
        exact answers_unavailable leads location _ _
      · exact parseExecutionRoute_answers validScope validRoot _ _ location

end

end

theorem projectPathBase_valid (isBase : projectPathBase raw decoded = some base) :
    ValidScope base.scope ∧ ValidId base.rootSessionId := by
  simp only [projectPathBase, bind_eq_bind, bind_eq_some_iff] at isBase
  obtain ⟨_, isId, _, isRoot, isBase⟩ := isBase
  split at isBase
  · cases isBase
    exact ⟨(routeId_eq_some isId).2, (routeId_eq_some isRoot).2⟩
  · cases isBase

theorem hostPathBase_valid (isBase : hostPathBase raw decoded = some base) :
    ValidScope base.scope ∧ ValidId base.rootSessionId := by
  rw [hostPathBase, bind_eq_bind, bind_eq_some_iff] at isBase
  obtain ⟨_, isRoot, isBase⟩ := isBase
  split at isBase
  · cases isBase
    exact ⟨trivial, (routeId_eq_some isRoot).2⟩
  · cases isBase

theorem parsePathBase_valid (isBase : parsePathBase raw decoded = some base) :
    ValidScope base.scope ∧ ValidId base.rootSessionId := by
  rw [parsePathBase] at isBase
  split at isBase
  · cases isBase
  · cases isProject : projectPathBase raw decoded with
    | none =>
      rw [isProject] at isBase
      exact hostPathBase_valid isBase
    | some =>
      rw [isProject] at isBase
      cases isBase
      exact projectPathBase_valid isProject

theorem decodePathBase_valid (isBase : decodePathBase raw = some base) :
    ValidScope base.scope ∧ ValidId base.rootSessionId := by
  rw [decodePathBase] at isBase
  split at isBase
  · cases isBase
  · split at isBase
    · simp only [bind_eq_bind, bind_eq_some_iff] at isBase
      obtain ⟨_, -, _, -, _, isId, rootSessionId, isRoot, isBase⟩ := isBase
      cases isBase
      exact ⟨(routeId_eq_some isId).2, (routeId_eq_some isRoot).2⟩
    · split at isBase
      · simp only [bind_eq_bind, bind_eq_some_iff] at isBase
        obtain ⟨_, -, rootSessionId, isRoot, isBase⟩ := isBase
        cases isBase
        exact ⟨trivial, (routeId_eq_some isRoot).2⟩
      · cases isBase

theorem recoveryFromPartiallyDecodablePath_eq_ok (raw : List CodeUnits) :
    ∃ found, recoveryFromPartiallyDecodablePath raw = .ok found ∧
      ∀ recovery, found = some recovery → IsWritten recovery.url := by
  have nothing : ∀ recovery : WorkspaceRouteRecovery, none = some recovery →
      IsWritten recovery.url := nofun
  have found : ∀ {result : Except Thrown WorkspaceRouteRecovery},
      (∃ recovery, result = .ok recovery ∧ IsWritten recovery.url) →
        ∃ found, (result >>= fun recovery => .ok (some recovery)) = .ok found ∧
          ∀ recovery, found = some recovery → IsWritten recovery.url := by
    rintro _ ⟨recovery, rfl, leads⟩
    exact ⟨_, rfl, fun _ same => Option.some.inj same ▸ leads⟩
  rw [recoveryFromPartiallyDecodablePath]
  cases isBase : decodePathBase raw with
  | none => exact ⟨none, rfl, nothing⟩
  | some base =>
    obtain ⟨validScope, validRoot⟩ := decodePathBase_valid isBase
    dsimp only
    split
    · exact found (recoveryForRootConversation_eq_ok base validScope validRoot)
    · split
      · exact found (rootOutlineRecovery_eq_ok base validScope validRoot)
      · exact ⟨none, rfl, nothing⟩

theorem parseLocation_answers : Answers location (parseLocation location) := by
  rw [parseLocation]
  split
  · exact ⟨.none, rfl, trivial⟩
  · dsimp only
    split
    · obtain ⟨found, isFound, leads⟩ :=
        recoveryFromPartiallyDecodablePath_eq_ok (location.pathname.splitOn 0x2F)
      exact ⟨_, bind_eq_ok.mpr ⟨found, isFound, rfl⟩, leads⟩
    · split
      · refine ⟨_, rfl, ?_⟩
        intro recovery isRecovery
        cases isRecovery
      · rename_i base isBase
        obtain ⟨validScope, validRoot⟩ := parsePathBase_valid isBase
        exact parseDestination_answers validScope validRoot _ _ location

/-- What is serialized for an accepted route reads back as this route. Every URL is answered; a
match leads with its canonical URL to the same route and is corrected unless it was canonical,
and a recovery leads to a route. -/
theorem workspaceRoute_roundTrip :
    (∀ route, assertWorkspaceRoute route = .ok () →
      ∃ url, serializeWorkspaceRoute route = .ok url ∧ ReadsBack url route) ∧
    ∀ url, ∃ result, parseWorkspaceRoute (.url url) = .ok result ∧
      (∀ matched, result = .route matched →
        ReadsBack matched.canonicalUrl matched.route ∧
          (matched.correction = none ↔ url = matched.canonicalUrl)) ∧
      ∀ owned recovery, result = .unavailable owned → owned.backTo = some recovery →
        ∃ route, ReadsBack recovery.url route := by
  constructor
  · intro route accepted
    have valid := assertWorkspaceRoute_eq_ok_iff.mp accepted
    obtain ⟨url, isWritten⟩ := serialize_eq_ok valid
    exact ⟨url, isWritten, readsBack_of_serialize valid isWritten⟩
  · intro url
    obtain ⟨result, isParsed, sound⟩ := parseLocation_answers (locationParts (.url url))
    refine ⟨result, isParsed, ?_, ?_⟩
    · rintro matched rfl
      obtain ⟨valid, isWritten, corrected⟩ := sound
      exact ⟨readsBack_of_serialize valid isWritten, corrected⟩
    · rintro owned recovery rfl leadsBack
      obtain ⟨route, valid, isWritten⟩ := sound recovery leadsBack
      exact ⟨route, readsBack_of_serialize valid isWritten⟩

/-- An agent whose ID has a colon, a percent sign, a plus sign and a character beyond the BMP. -/
theorem workspaceRoute_roundTrip_agent :
    ∃ url, serializeWorkspaceRoute (.execution ⟨.project (units "p'+%41"), units "r", .activity,
        .agent (units "a:b" ++ [0xD83D, 0xDE00]), .delegation (units "+"), none⟩) = .ok url ∧
      ReadsBack url (.execution ⟨.project (units "p'+%41"), units "r", .activity,
        .agent (units "a:b" ++ [0xD83D, 0xDE00]), .delegation (units "+"), none⟩) :=
  workspaceRoute_roundTrip.1 _ (by decide +kernel)

end PiRelay.Web
