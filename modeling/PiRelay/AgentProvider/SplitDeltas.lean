import PiRelay.AgentProvider.StreamSteps

/-! Deltas that are split. A text that a block is streamed, its thinking and its input arrive
in pieces; how they are cut does not matter, not even to the error a stream is refused with. -/
namespace PiRelay.AgentProvider

open AgentVocab List Option
open Library (Json bind_eq_ok)

/-- The kinds of deltas that carry a piece of a text. -/
inductive PieceKind where
  | text
  | thinking
  | input

namespace PieceKind

def deltaType : PieceKind → String
  | .text => "text_delta"
  | .thinking => "thinking_delta"
  | .input => "input_json_delta"

def field : PieceKind → String
  | .text => "text"
  | .thinking => "thinking"
  | .input => "partial_json"

def blockField : PieceKind → String
  | .text => "text"
  | .thinking => "thinking"
  | .input => "input"

/-- Whether a block takes pieces of the kind, and how it refuses them. -/
def admission (kind : PieceKind) (block : Json) : ProviderResult Unit := do
  let blockType ← anthropicBlockType block "Anthropic streamed content block"
  let invalid : ProviderResult Unit :=
    refuse ("Anthropic " ++ kind.deltaType ++ " was invalid for content block type " ++ blockType)
  match kind with
  | .text => if blockType = "text" then .ok () else invalid
  | .thinking =>
    if blockType = "thinking" then
      if isSigned block then refuse "Anthropic thinking_delta arrived after signature_delta"
      else .ok ()
    else invalid
  | .input => if blockType = "tool_use" ∨ blockType = "server_tool_use" then .ok () else invalid

def append (kind : PieceKind) (block : Json) (piece : String) : Json :=
  block.set kind.blockField (.string ((block.getStr kind.blockField).getD "" ++ piece))

end PieceKind

open PieceKind

variable {kind : PieceKind} {block : Json} {piece : String}

theorem appendRequiredJsonStringField_piece {delta : Json}
    (isPiece : delta.getStr kind.field = some piece) :
    appendRequiredJsonStringField block kind.blockField delta kind.field =
      .ok (kind.append block piece) :=
  appendRequiredJsonStringField_eq_ok_iff.mpr ⟨piece, isPiece, rfl⟩

theorem applyDelta_piece {delta : Json} (isType : delta.getStr "type" = some kind.deltaType)
    (isPiece : delta.getStr kind.field = some piece) :
    applyDelta block delta = (kind.admission block).map fun _ => kind.append block piece := by
  have appended : appendRequiredJsonStringField block kind.blockField delta kind.field =
      .ok (kind.append block piece) := appendRequiredJsonStringField_piece isPiece
  rw [applyDelta, admission]
  cases anthropicBlockType block "Anthropic streamed content block" with
  | error => rfl
  | ok blockType =>
    cases kind with
    | text =>
      simp only [deltaType, field, blockField] at isType appended
      by_cases isText : blockType = "text"
      · simp [isType, nonempty, isText, appended, bind, Except.bind, Except.map]
      · simp [isType, nonempty, isText, deltaTypes, bind, Except.bind, Except.map, refuse,
          deltaType]
    | thinking =>
      simp only [deltaType, field, blockField] at isType appended
      by_cases isThinking : blockType = "thinking"
      · cases signed : isSigned block with
        | true =>
          simp [isType, nonempty, isThinking, applyThinkingDelta, signed, bind, Except.bind,
            Except.map, refuse]
        | false =>
          simp [isType, nonempty, isThinking, applyThinkingDelta, signed, appended, bind,
            Except.bind, Except.map]
      · simp [isType, nonempty, isThinking, deltaTypes, bind, Except.bind, Except.map, refuse,
          deltaType]
    | input =>
      simp only [deltaType, field, blockField] at isType appended
      by_cases isTool : blockType = "tool_use" ∨ blockType = "server_tool_use"
      · simp [isType, nonempty, isTool, appended, bind, Except.bind, Except.map]
      · simp [isType, nonempty, isTool, deltaTypes, bind, Except.bind, Except.map, refuse,
          deltaType]

theorem PieceKind.blockField_ne (kind : PieceKind) :
    "type" ≠ kind.blockField ∧ "signature" ≠ kind.blockField := by
  cases kind <;> decide

theorem PieceKind.admission_append (kind other : PieceKind) (block : Json) (piece : String) :
    other.admission (kind.append block piece) = other.admission block := by
  obtain ⟨notType, notSignature⟩ := kind.blockField_ne
  have sameType : anthropicBlockType (kind.append block piece) "Anthropic streamed content block" =
      anthropicBlockType block "Anthropic streamed content block" := by
    rw [anthropicBlockType, openaiReplayItemType, anthropicBlockType, openaiReplayItemType,
      append, Json.isObject_set, getStr_set_of_ne notType]
  have sameSigned : isSigned (kind.append block piece) = isSigned block := by
    rw [isSigned, append, getStr_set_of_ne notSignature, isSigned]
  rw [admission, sameType, sameSigned, admission]

theorem PieceKind.append_append (isObject : block.isObject) (first second : String) :
    kind.append (kind.append block first) second = kind.append block (first ++ second) := by
  rw [append, append, Json.set_set, getStr_set_self isObject, append,
    getD_some, String.append_assoc]

theorem PieceKind.isObject_of_admitted (admitted : kind.admission block = .ok ()) :
    block.isObject := by
  obtain ⟨_, typed, -⟩ := bind_eq_ok.mp admitted
  obtain ⟨stored, isStored, -⟩ := bind_eq_some_iff.mp (anthropicBlockType_eq_ok_iff.mp typed)
  exact isObject_of_getStr isStored

/-- A delta that carries a piece. -/
structure IsPiece (kind : PieceKind) (piece : String) (delta : Json) : Prop where
  type : delta.getStr "type" = some kind.deltaType
  piece : delta.getStr kind.field = some piece

theorem applyDelta_split {whole first second : Json} {left right : String}
    (isWhole : IsPiece kind (left ++ right) whole) (isFirst : IsPiece kind left first)
    (isSecond : IsPiece kind right second) :
    applyDelta block whole = (applyDelta block first).bind fun filled => applyDelta filled second := by
  rw [applyDelta_piece isWhole.type isWhole.piece, applyDelta_piece isFirst.type isFirst.piece]
  cases admitted : kind.admission block with
  | error => rfl
  | ok =>
    have isObject := isObject_of_admitted admitted
    show Except.ok (kind.append block (left ++ right)) = applyDelta (kind.append block left) second
    rw [applyDelta_piece isSecond.type isSecond.piece, admission_append, admitted,
      ← append_append isObject]
    rfl

/-- An event that carries a piece of a block, with the index it gives. -/
structure CarriesPieceAt (kind : PieceKind) (index : Option Nat) (piece : String) (event : Json) :
    Prop where
  type : event.getStr "type" = some "content_block_delta"
  index : eventIndex event = index
  delta : ∃ delta, event.get "delta" = some delta ∧ IsPiece kind piece delta

theorem CarriesPieceAt.exists_piece {index : Option Nat} {event : Json}
    (carries : CarriesPieceAt kind index piece event) (other : String) :
    ∃ carrier, CarriesPieceAt kind index other carrier := by
  obtain ⟨delta, isDelta, isPiece⟩ := carries.delta
  have notType : "type" ≠ kind.field := by cases kind <;> decide
  refine ⟨event.set "delta" (delta.set kind.field (.string other)), ?_, ?_, ?_⟩
  · rw [getStr_set_of_ne (by decide)]
    exact carries.type
  · rw [eventIndex, Json.get_set_of_ne (by decide)]
    exact carries.index
  · refine ⟨_, Json.get_set_self (Json.isObject_of_get isDelta) _ _, ?_, ?_⟩
    · rw [getStr_set_of_ne notType]
      exact isPiece.type
    · exact getStr_set_self (isObject_of_getStr isPiece.type) _ _

namespace AnthropicStreamState

def requireDeltaIndex : Option Nat → ProviderResult Nat
  | some index => .ok index
  | none => refuse "Anthropic content_block_delta missing valid representable index"

def takeDelta (state : AnthropicStreamState) (index : Option Nat) (delta : Json) :
    ProviderResult AnthropicStreamState := do
  state.requireContentPhase "content_block_delta"
  let index ← requireDeltaIndex index
  state.applyContentDelta index delta

variable {event delta whole first second : Json} {kind : PieceKind} {left right piece : String}
    {index : Option Nat} {text : StreamText}
variable (state : AnthropicStreamState)

theorem contentBlockDelta_eq (isDelta : event.get "delta" = some delta)
    (isObject : delta.isObject) :
    state.contentBlockDelta event = state.takeDelta (eventIndex event) delta := by
  have found : eventObject event "content_block_delta" "delta" = .ok delta :=
    eventObject_ok_iff.mpr ⟨isDelta, isObject⟩
  have sameIndex : anthropicStreamIndex event "content_block_delta" =
      requireDeltaIndex (eventIndex event) := by
    rw [anthropicStreamIndex, ← eventIndex]
    cases eventIndex event <;> rfl
  rw [contentBlockDelta, takeDelta, found, sameIndex]
  rfl

theorem applyContentDelta_split (index : Nat) (isWhole : IsPiece kind (left ++ right) whole)
    (isFirst : IsPiece kind left first) (isSecond : IsPiece kind right second) :
    state.applyContentDelta index whole =
      (state.applyContentDelta index first).bind (·.applyContentDelta index second) := by
  rw [applyContentDelta, applyContentDelta]
  cases state.activeContentBlock with
  | none => rfl
  | some active =>
    obtain ⟨activeIndex, block⟩ := active
    dsimp only
    by_cases same : index = activeIndex
    · subst same
      rw [if_neg (not_not_intro rfl), if_neg (not_not_intro rfl),
        applyDelta_split isWhole isFirst isSecond]
      cases applyDelta block first with
      | error => rfl
      | ok filled =>
        show _ = applyContentDelta { state with activeContentBlock := some (index, filled) }
          index second
        rw [applyContentDelta]
        dsimp only
        rw [if_neg (not_not_intro rfl)]
        rfl
    · rw [if_pos same, if_pos same]
      rfl

theorem requireContentPhase_applied {state after : AnthropicStreamState} {index : Nat}
    (applied : state.applyContentDelta index delta = .ok after) (eventType : String) :
    after.requireContentPhase eventType = state.requireContentPhase eventType := by
  obtain ⟨-, -, -, -, rfl⟩ := applyContentDelta_ok_iff.mp applied
  rfl

theorem takeDelta_split (index : Option Nat) (isWhole : IsPiece kind (left ++ right) whole)
    (isFirst : IsPiece kind left first) (isSecond : IsPiece kind right second) :
    state.takeDelta index whole =
      (state.takeDelta index first).bind (·.takeDelta index second) := by
  rw [takeDelta, takeDelta]
  cases phase : state.requireContentPhase "content_block_delta" with
  | error => rfl
  | ok =>
    cases index with
    | none => rfl
    | some index =>
      show state.applyContentDelta index whole =
        (state.applyContentDelta index first).bind (·.takeDelta (some index) second)
      rw [applyContentDelta_split state index isWhole isFirst isSecond]
      cases applied : state.applyContentDelta index first with
      | error => rfl
      | ok after =>
        show after.applyContentDelta index second = after.takeDelta (some index) second
        rw [takeDelta, requireContentPhase_applied applied, phase]
        rfl

theorem applyContentDelta_congr {other : Json} (index : Nat) (isPiece : IsPiece kind piece delta)
    (isOther : IsPiece kind piece other) :
    state.applyContentDelta index delta = state.applyContentDelta index other := by
  have same : ∀ block, applyDelta block delta = applyDelta block other := by
    intro block
    rw [applyDelta_piece isPiece.type isPiece.piece, applyDelta_piece isOther.type isOther.piece]
  rw [applyContentDelta, applyContentDelta]
  simp only [same]

theorem takes_of_carries (carries : CarriesPieceAt kind index piece event) :
    ∃ delta, IsPiece kind piece delta ∧
      ∀ state : AnthropicStreamState, state.contentBlockDelta event = state.takeDelta index delta := by
  obtain ⟨delta, isDelta, isPiece⟩ := carries.delta
  refine ⟨delta, isPiece, ?_⟩
  intro state
  rw [contentBlockDelta_eq state isDelta (isObject_of_getStr isPiece.type), carries.index]

theorem contentBlockDelta_split (isWhole : CarriesPieceAt kind index (left ++ right) whole)
    (isFirst : CarriesPieceAt kind index left first)
    (isSecond : CarriesPieceAt kind index right second) :
    state.contentBlockDelta whole =
      (state.contentBlockDelta first).bind (·.contentBlockDelta second) := by
  obtain ⟨_, wholePiece, takesWhole⟩ := takes_of_carries isWhole
  obtain ⟨_, firstPiece, takesFirst⟩ := takes_of_carries isFirst
  obtain ⟨_, secondPiece, takesSecond⟩ := takes_of_carries isSecond
  rw [takesWhole, takesFirst, takeDelta_split state index wholePiece firstPiece secondPiece]
  congr 1
  funext after
  rw [takesSecond]

theorem contentBlockDelta_congr {other : Json} (carries : CarriesPieceAt kind index piece event)
    (alike : CarriesPieceAt kind index piece other) :
    state.contentBlockDelta event = state.contentBlockDelta other := by
  obtain ⟨delta, isPiece, takes⟩ := takes_of_carries carries
  obtain ⟨otherDelta, isOther, takesOther⟩ := takes_of_carries alike
  have same : ∀ index, state.applyContentDelta index delta =
      state.applyContentDelta index otherDelta :=
    fun index => applyContentDelta_congr state index isPiece isOther
  rw [takes, takesOther, takeDelta, takeDelta]
  simp only [same]

theorem process_piece (carries : CarriesPieceAt kind index piece event) :
    state.processSseEvent text (.json event) =
      (state.contentBlockDelta event).map fun after => (after, .more) := by
  obtain ⟨delta, isDelta, isPiece⟩ := carries.delta
  have allowed : isCompactionEvent event = false := by
    rw [isCompactionEvent_of_delta carries.type, isDelta]
    show (delta.getStr "type" == some "compaction_delta") = false
    rw [isPiece.type]
    cases kind <;> decide
  have absorbs : state.absorb text event = state.contentBlockDelta event := by
    rw [absorb, carries.type]
    rfl
  rw [processSseEvent, processEvent, rejectOrdinaryCompactionEvent, allowed, absorbs]
  simp [carries.type, bind, Except.bind]

theorem consume_split (isWhole : CarriesPieceAt kind index (left ++ right) whole)
    (isFirst : CarriesPieceAt kind index left first)
    (isSecond : CarriesPieceAt kind index right second) (rest : List SseEvent) :
    Library.consume (processSseEvent text) state (.json whole :: rest) =
      Library.consume (processSseEvent text) state (.json first :: .json second :: rest) := by
  rw [Library.consume, Library.consume, process_piece state isWhole, process_piece state isFirst,
    contentBlockDelta_split state isWhole isFirst isSecond]
  cases state.contentBlockDelta first with
  | error => rfl
  | ok after =>
    show _ = Library.consume (processSseEvent text) after (.json second :: rest)
    rw [Library.consume, process_piece after isSecond]
    rfl

/-- A delta may come in pieces. -/
theorem consume_pieces {pieces : List String} {parts : List Json}
    (areParts : List.Forall₂ (CarriesPieceAt kind index) pieces parts) (nonempty : parts ≠ [])
    (isWhole : CarriesPieceAt kind index (String.join pieces) whole) (rest : List SseEvent)
    (state : AnthropicStreamState) :
    Library.consume (processSseEvent text) state (.json whole :: rest) =
      Library.consume (processSseEvent text) state (parts.map .json ++ rest) := by
  induction areParts generalizing whole state with
  | nil => exact absurd rfl nonempty
  | @cons piece part pieces parts isPart areParts ih =>
    rw [String.join_cons] at isWhole
    cases areParts with
    | nil =>
      rw [String.join_nil, String.append_empty] at isWhole
      rw [map_singleton, singleton_append, Library.consume, Library.consume,
        process_piece state isWhole, process_piece state isPart,
        contentBlockDelta_congr state isWhole isPart]
    | cons =>
      -- the rest of the piece, carried by one event in between
      obtain ⟨_, isCarrier⟩ := isWhole.exists_piece (String.join _)
      rw [consume_split state isWhole isPart isCarrier]
      exact Library.consume_append_congr (fun after => ih (by simp) isCarrier after) [.json part] state

end AnthropicStreamState

/-- The piece of an event is cut into those of others of its kind and index. -/
structure Splits (event : Json) (parts : List Json) (kind : PieceKind) (index : Option Nat)
    (pieces : List String) : Prop where
  whole : CarriesPieceAt kind index (String.join pieces) event
  cut : List.Forall₂ (CarriesPieceAt kind index) pieces parts
  nonempty : parts ≠ []

theorem parseAnthropicStream_split {text : StreamText} {event : Json} {parts : List Json}
    {index : Option Nat} {pieces : List String} (splits : Splits event parts kind index pieces)
    (before after : List SseEvent) :
    parseAnthropicStream text (before ++ .json event :: after) =
      parseAnthropicStream text (before ++ (parts.map .json ++ after)) := by
  rw [parseAnthropicStream, parseAnthropicStream, Library.consume_append_congr fun state =>
    AnthropicStreamState.consume_pieces splits.cut splits.nonempty splits.whole after state]

end PiRelay.AgentProvider
