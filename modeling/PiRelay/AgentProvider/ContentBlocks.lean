import PiRelay.AgentProvider.AnthropicStream
import PiRelay.AgentProvider.DeliveredCalls

/-! The deltas of one content block. Which of them a block takes depends on its type alone,
up to what its thinking ends with and what the text of its input stands for. -/
namespace PiRelay.AgentProvider

open AgentVocab List Option
open Library (Json bind_eq_ok)

/-- A delta of a type that carries a piece of text. -/
def CarriesPiece (deltaType field : String) (delta : Json) : Prop :=
  delta.getStr "type" = some deltaType ∧ ∃ piece, delta.getStr field = some piece

def CarriesSignature (delta : Json) : Prop :=
  delta.getStr "type" = some "signature_delta" ∧
    ∃ signature, (delta.getStr "signature").bind nonempty = some signature

def CarriesCitation (delta : Json) : Prop :=
  delta.getStr "type" = some "citations_delta" ∧
    ∃ citation type, delta.get "citation" = some citation ∧
      (citation.getStr "type").bind nonempty = some type

/-- A streamed input stands for an object; nothing streamed stands for the empty one. -/
def IsToolInput (text : StreamText) (input : String) : Prop :=
  input.isEmpty = true ∨ ∃ value, text.fromText input = some value ∧ value.isObject = true

def isToolType (blockType : String) : Bool :=
  blockType == "tool_use" || blockType == "server_tool_use"

def streamedInput (deltas : List Json) : String :=
  String.join (deltas.map fun delta => validatedString delta "partial_json")

def LegalDeltas (text : StreamText) (blockType : String) (deltas : List Json) : Prop :=
  if blockType = "text" then
    ∀ delta ∈ deltas, CarriesPiece "text_delta" "text" delta ∨ CarriesCitation delta
  else if blockType = "thinking" then
    ∃ thoughts signature, deltas = thoughts ++ [signature] ∧
      (∀ delta ∈ thoughts, CarriesPiece "thinking_delta" "thinking" delta) ∧
      CarriesSignature signature
  else if isToolType blockType = true then
    (∀ delta ∈ deltas, CarriesPiece "input_json_delta" "partial_json" delta) ∧
      IsToolInput text (streamedInput deltas)
  else deltas = []

theorem nonempty_eq_some {value kept : String} (isKept : nonempty value = some kept) :
    kept = value ∧ value.isEmpty = false := by
  rw [nonempty] at isKept
  split at isKept
  · cases isKept
  · rename_i filled
    exact ⟨(Option.some.inj isKept).symm, by simpa using filled⟩

theorem getStr_set_of_ne {name other : String} (apart : other ≠ name) (block field : Json) :
    (block.set name field).getStr other = block.getStr other := by
  rw [Json.getStr, Json.get_set_of_ne apart, Json.getStr]

variable {block delta filled : Json} {blockType start : String} {text : StreamText}
    {deltas : List Json}

theorem getStr_set_self (isObject : block.isObject) (name value : String) :
    (block.set name (.string value)).getStr name = some value := by
  rw [Json.getStr, Json.get_set_self isObject]
  rfl

theorem isObject_of_getStr {value : Json} {name stored : String}
    (found : value.getStr name = some stored) : value.isObject :=
  Json.isObject_of_get (Json.getStr_eq_some found)

theorem anthropicBlockType_eq_ok_iff {context : String} :
    anthropicBlockType block context = .ok blockType ↔
      (block.getStr "type").bind nonempty = some blockType := by
  rw [anthropicBlockType, openaiReplayItemType]
  constructor
  · intro typed
    split at typed
    · split at typed
      · rename_i found
        rw [found, Except.ok.inj typed]
      · cases typed
    · cases typed
  · intro typed
    obtain ⟨_, isStored, -⟩ := bind_eq_some_iff.mp typed
    rw [if_pos (isObject_of_getStr isStored), typed]

theorem appendRequiredJsonStringField_eq_ok_iff {blockField deltaField : String} :
    appendRequiredJsonStringField block blockField delta deltaField = .ok filled ↔
      ∃ piece, delta.getStr deltaField = some piece ∧
        filled = block.set blockField (.string ((block.getStr blockField).getD "" ++ piece)) := by
  rw [appendRequiredJsonStringField, requiredAnthropicDeltaString]
  cases delta.getStr deltaField with
  | none => simp [refuse, bind, Except.bind]
  | some =>
    cases block.getStr blockField with
    | none | some => simp [bind, Except.bind, eq_comm]

/-- A delta is taken by the block type it belongs to. -/
inductive TakesDelta (block delta : Json) (blockType : String) (filled : Json) : Prop where
  | input (isType : delta.getStr "type" = some "input_json_delta")
      (isTool : isToolType blockType = true)
      (appended : appendRequiredJsonStringField block "input" delta "partial_json" = .ok filled)
  | said (isType : delta.getStr "type" = some "text_delta") (isText : blockType = "text")
      (appended : appendRequiredJsonStringField block "text" delta "text" = .ok filled)
  | thought (isType : delta.getStr "type" = some "thinking_delta")
      (isThinking : blockType = "thinking") (applied : applyThinkingDelta block delta = .ok filled)
  | signature (isType : delta.getStr "type" = some "signature_delta")
      (isThinking : blockType = "thinking") (applied : applySignatureDelta block delta = .ok filled)
  | citation (isType : delta.getStr "type" = some "citations_delta") (isText : blockType = "text")
      (applied : applyCitationsDelta block delta = .ok filled)

/-- A block takes the deltas of its own type. -/
theorem applyDelta_eq_ok_iff (typed : (block.getStr "type").bind nonempty = some blockType) :
    applyDelta block delta = .ok filled ↔ TakesDelta block delta blockType filled := by
  rw [applyDelta, anthropicBlockType_eq_ok_iff.mpr typed]
  constructor
  · intro applied
    obtain ⟨_, same, chosen⟩ := bind_eq_ok.mp applied
    cases same
    split at chosen
    · rename_i deltaType isNamed
      obtain ⟨_, isStored, kept⟩ := bind_eq_some_iff.mp isNamed
      obtain ⟨rfl, -⟩ := nonempty_eq_some kept
      obtain ⟨_, same, applied⟩ := bind_eq_ok.mp chosen
      cases same
      dsimp only at applied
      split at applied
      · rename_i both
        exact .input (both.1 ▸ isStored) (by simpa [isToolType] using both.2) applied
      split at applied
      · rename_i both
        exact .said (both.1 ▸ isStored) both.2 applied
      split at applied
      · rename_i both
        exact .thought (both.1 ▸ isStored) both.2 applied
      split at applied
      · rename_i both
        exact .signature (both.1 ▸ isStored) both.2 applied
      split at applied
      · rename_i both
        exact .citation (both.1 ▸ isStored) both.2 applied
      split at applied <;> cases applied
    · cases chosen
  · intro takes
    cases takes with
    | input isType isTool appended =>
      have isTool : blockType = "tool_use" ∨ blockType = "server_tool_use" := by
        simpa [isToolType] using isTool
      simpa [isType, nonempty, isTool, bind, Except.bind] using appended
    | said isType isBlock applied | thought isType isBlock applied
    | signature isType isBlock applied | citation isType isBlock applied =>
      simpa [isType, nonempty, isBlock, bind, Except.bind] using applied

/-- What a block is filled with, its type, id and name apart. -/
def contentFields : List String := ["input", "text", "thinking", "signature", "citations"]

/-- The same type, id and name. -/
def SameHead (block filled : Json) : Prop :=
  ∀ name ∈ ["type", "id", "name"], filled.getStr name = block.getStr name

theorem SameHead.refl (block : Json) : SameHead block block := fun _ _ => rfl

theorem SameHead.trans {final : Json} (first : SameHead block filled)
    (second : SameHead filled final) : SameHead block final :=
  fun name isName => (second name isName).trans (first name isName)

theorem sameHead_set {field : String} (isContent : field ∈ contentFields) (block value : Json) :
    SameHead block (block.set field value) := by
  have differs : ∀ name ∈ ["type", "id", "name"], name ≠ field := by
    rintro name isName rfl
    revert name
    decide
  exact fun name isName => getStr_set_of_ne (differs name isName) block value

theorem sameHead_normalize (block : Json) : SameHead block (normalizeStreamContentStart block) := by
  rw [normalizeStreamContentStart]
  split
  · exact sameHead_set (by decide) block _
  · exact sameHead_set (by decide) block _
  · exact sameHead_set (by decide) block _
  · exact (sameHead_set (by decide) block _).trans (sameHead_set (by decide) _ _)
  · exact SameHead.refl block

theorem sameHead_append {field deltaField : String} (isContent : field ∈ contentFields)
    (appended : appendRequiredJsonStringField block field delta deltaField = .ok filled) :
    SameHead block filled := by
  obtain ⟨-, -, rfl⟩ := appendRequiredJsonStringField_eq_ok_iff.mp appended
  exact sameHead_set isContent block _

theorem applyThinkingDelta_eq_ok_iff :
    applyThinkingDelta block delta = .ok filled ↔
      isSigned block = false ∧
        appendRequiredJsonStringField block "thinking" delta "thinking" = .ok filled := by
  rw [applyThinkingDelta]
  cases isSigned block with
  | true => simp [refuse]
  | false => simp

theorem applySignatureDelta_eq_ok_iff :
    applySignatureDelta block delta = .ok filled ↔
      isSigned block = false ∧ ∃ signature,
        (delta.getStr "signature").bind nonempty = some signature ∧
          filled = block.set "signature" (.string signature) := by
  rw [applySignatureDelta, requiredAnthropicDeltaString]
  cases delta.getStr "signature" with
  | none => simp [refuse, bind, Except.bind]
  | some signature =>
    cases isSigned block with
    | true =>
      by_cases empty : signature.isEmpty <;> simp [refuse, bind, Except.bind, empty]
    | false =>
      by_cases empty : signature.isEmpty
      · simp [refuse, bind, Except.bind, empty, nonempty]
      · have kept : nonempty signature = some signature := by simp [nonempty, empty]
        constructor
        · intro applied
          have written : block.set "signature" (.string signature) = filled := by
            simpa [bind, Except.bind, empty] using applied
          exact ⟨rfl, signature, kept, written.symm⟩
        · rintro ⟨-, other, isOther, rfl⟩
          obtain rfl : signature = other := Option.some.inj (kept.symm.trans isOther)
          simp [bind, Except.bind, empty]

/-- The citations of a block are a list or missing. -/
def HasCitations (block : Json) : Prop :=
  block.get "citations" = none ∨ block.get "citations" = some .null ∨
    ∃ citations, block.get "citations" = some (.array citations)

theorem applyCitationsDelta_eq_ok (applied : applyCitationsDelta block delta = .ok filled) :
    (∃ citation type, delta.get "citation" = some citation ∧
        (citation.getStr "type").bind nonempty = some type) ∧
      ∃ citations, filled = block.set "citations" (.array citations) := by
  rw [applyCitationsDelta] at applied
  split at applied
  · rename_i fields isObject
    obtain ⟨_, same, typed⟩ := bind_eq_ok.mp applied
    cases same
    obtain ⟨type, isType, written⟩ := bind_eq_ok.mp typed
    constructor
    · exact ⟨_, type, isObject, anthropicBlockType_eq_ok_iff.mp isType⟩
    · split at written
      · exact ⟨_, (Except.ok.inj written).symm⟩
      · exact ⟨_, (Except.ok.inj written).symm⟩
      · exact ⟨_, (Except.ok.inj written).symm⟩
      · cases written
  · cases applied

theorem applyCitationsDelta_ok {citation : Json} {type : String} (hasCitations : HasCitations block)
    (isCitation : delta.get "citation" = some citation)
    (typed : (citation.getStr "type").bind nonempty = some type) :
    ∃ filled, applyCitationsDelta block delta = .ok filled := by
  obtain ⟨_, isStored, -⟩ := bind_eq_some_iff.mp typed
  have isObject := isObject_of_getStr isStored
  have isTyped : anthropicBlockType citation "Anthropic citations_delta citation" = .ok type :=
    anthropicBlockType_eq_ok_iff.mpr typed
  cases citation with
  | object =>
    rw [applyCitationsDelta, isCitation]
    obtain absent | isNull | ⟨_, isArray⟩ := hasCitations
    · simp [bind, Except.bind, isTyped, absent]
    · simp [bind, Except.bind, isTyped, isNull]
    · simp [bind, Except.bind, isTyped, isArray]
  | _ => cases isObject

theorem sameHead_applyDelta (applied : applyDelta block delta = .ok filled) :
    SameHead block filled := by
  have typed : ∃ blockType, (block.getStr "type").bind nonempty = some blockType := by
    obtain ⟨blockType, isType, -⟩ := bind_eq_ok.mp applied
    exact ⟨blockType, anthropicBlockType_eq_ok_iff.mp isType⟩
  obtain ⟨blockType, isType⟩ := typed
  cases (applyDelta_eq_ok_iff isType).mp applied with
  | input _ _ appended | said _ _ appended => exact sameHead_append (by decide) appended
  | thought _ _ applied =>
    exact sameHead_append (by decide) (applyThinkingDelta_eq_ok_iff.mp applied).2
  | signature _ _ applied =>
    obtain ⟨-, signature, -, rfl⟩ := applySignatureDelta_eq_ok_iff.mp applied
    exact sameHead_set (by decide) block _
  | citation _ _ applied =>
    obtain ⟨-, -, rfl⟩ := applyCitationsDelta_eq_ok applied
    exact sameHead_set (by decide) block _

theorem sameHead_parseToolInput {parsed : Json} (ran : parseToolInput text block = .ok parsed) :
    SameHead block parsed := by
  rw [parseToolInput] at ran
  split at ran
  · obtain ⟨_, -, written⟩ := bind_eq_ok.mp ran
    cases written
    exact sameHead_set (by decide) block _
  · cases ran

theorem sameHead_finalize {final : Json}
    (finalized : finalizeStreamContentBlock text block = .ok final) : SameHead block final := by
  obtain ⟨filled, isFilled, checked⟩ := bind_eq_ok.mp finalized
  have sameBlock : filled = final := by
    split at checked
    · cases checked
    · exact Except.ok.inj checked
  subst sameBlock
  rw [finalizeToolInput] at isFilled
  split at isFilled
  · exact sameHead_parseToolInput isFilled
  · exact sameHead_parseToolInput isFilled
  · cases isFilled
    exact SameHead.refl block

/-- Steps that take exactly the legal items while an invariant holds. -/
theorem foldlM_ok_iff {State Item : Type} {step : State → Item → ProviderResult State}
    {Invariant : State → Prop} {Legal : Item → Prop} (takes : ∀ state item, Invariant state →
      ((∃ next, step state item = .ok next) ↔ Legal item))
    (keeps : ∀ state item next, Invariant state → step state item = .ok next → Invariant next)
    {state : State} (holds : Invariant state) (items : List Item) :
    (∃ final, items.foldlM step state = .ok final) ↔ ∀ item ∈ items, Legal item := by
  induction items generalizing state with
  | nil => exact ⟨fun _ => by simp, fun _ => ⟨state, rfl⟩⟩
  | cons item _ ih =>
    rw [forall_mem_cons, ← takes state item holds]
    constructor
    · rintro ⟨final, ran⟩
      obtain ⟨next, first, others⟩ := bind_eq_ok.mp ran
      exact ⟨⟨next, first⟩, (ih (keeps state item next holds first)).mp ⟨final, others⟩⟩
    · rintro ⟨⟨next, first⟩, others⟩
      obtain ⟨final, ran⟩ := (ih (keeps state item next holds first)).mpr others
      refine ⟨final, ?_⟩
      exact bind_eq_ok.mpr ⟨next, first, ran⟩

theorem foldlM_sameHead (ran : deltas.foldlM applyDelta block = .ok filled) :
    SameHead block filled := by
  induction deltas generalizing block with
  | nil =>
    obtain rfl := Except.ok.inj ran
    exact SameHead.refl block
  | cons _ _ ih =>
    obtain ⟨_, first, others⟩ := bind_eq_ok.mp ran
    exact (sameHead_applyDelta first).trans (ih others)

theorem typed_of_getStr (isType : block.getStr "type" = some blockType) (named : blockType ≠ "") :
    (block.getStr "type").bind nonempty = some blockType := by
  rw [isType]
  simp [nonempty, named]

structure TextBlock (block : Json) : Prop where
  type : block.getStr "type" = some "text"
  citations : HasCitations block

theorem TextBlock.takes (isText : TextBlock block) :
    (∃ filled, applyDelta block delta = .ok filled) ↔
      CarriesPiece "text_delta" "text" delta ∨ CarriesCitation delta := by
  have typed := typed_of_getStr isText.type (by decide)
  simp only [applyDelta_eq_ok_iff typed]
  constructor
  · rintro ⟨filled, takes⟩
    cases takes with
    | input _ isTool => simp [isToolType] at isTool
    | said isType _ appended =>
      obtain ⟨piece, isPiece, -⟩ := appendRequiredJsonStringField_eq_ok_iff.mp appended
      exact Or.inl ⟨isType, piece, isPiece⟩
    | thought _ isThinking | signature _ isThinking => simp at isThinking
    | citation isType _ applied => exact Or.inr ⟨isType, (applyCitationsDelta_eq_ok applied).1⟩
  · rintro (⟨isType, piece, isPiece⟩ | ⟨isType, citation, _, isCitation, named⟩)
    · exact ⟨_, .said isType rfl
        (appendRequiredJsonStringField_eq_ok_iff.mpr ⟨piece, isPiece, rfl⟩)⟩
    · obtain ⟨filled, applied⟩ := applyCitationsDelta_ok isText.citations isCitation named
      exact ⟨filled, .citation isType rfl applied⟩

theorem TextBlock.keeps (isText : TextBlock block) (applied : applyDelta block delta = .ok filled) :
    TextBlock filled := by
  have isObject := isObject_of_getStr isText.type
  have typed := typed_of_getStr isText.type (by decide)
  constructor
  · rw [sameHead_applyDelta applied "type" (by simp), isText.type]
  · cases (applyDelta_eq_ok_iff typed).mp applied with
    | input _ isTool => simp [isToolType] at isTool
    | said _ _ appended =>
      obtain ⟨-, -, rfl⟩ := appendRequiredJsonStringField_eq_ok_iff.mp appended
      rw [HasCitations, Json.get_set_of_ne (by decide)]
      exact isText.citations
    | thought _ isThinking | signature _ isThinking => simp at isThinking
    | citation _ _ applied =>
      obtain ⟨-, citations, rfl⟩ := applyCitationsDelta_eq_ok applied
      exact Or.inr (Or.inr ⟨citations, Json.get_set_self isObject _ _⟩)

inductive TakesThought (block delta filled : Json) : Prop where
  | thought (piece : String) (isType : delta.getStr "type" = some "thinking_delta")
      (isPiece : delta.getStr "thinking" = some piece)
      (written : filled = block.set "thinking"
        (.string ((block.getStr "thinking").getD "" ++ piece)))
  | signature (signature : String) (isType : delta.getStr "type" = some "signature_delta")
      (isSignature : (delta.getStr "signature").bind nonempty = some signature)
      (written : filled = block.set "signature" (.string signature))

theorem applyDelta_thinking_iff (isType : block.getStr "type" = some "thinking") :
    applyDelta block delta = .ok filled ↔
      isSigned block = false ∧ TakesThought block delta filled := by
  rw [applyDelta_eq_ok_iff (typed_of_getStr isType (by decide))]
  constructor
  · intro takes
    cases takes with
    | input _ isTool => simp [isToolType] at isTool
    | said _ isText | citation _ isText => simp at isText
    | thought isDelta _ applied =>
      obtain ⟨unsigned, appended⟩ := applyThinkingDelta_eq_ok_iff.mp applied
      obtain ⟨piece, isPiece, written⟩ := appendRequiredJsonStringField_eq_ok_iff.mp appended
      exact ⟨unsigned, .thought piece isDelta isPiece written⟩
    | signature isDelta _ applied =>
      obtain ⟨unsigned, signature, isSignature, written⟩ := applySignatureDelta_eq_ok_iff.mp applied
      exact ⟨unsigned, .signature signature isDelta isSignature written⟩
  · rintro ⟨unsigned, takes⟩
    cases takes with
    | thought piece isDelta isPiece written =>
      have appended := appendRequiredJsonStringField_eq_ok_iff.mpr ⟨piece, isPiece, written⟩
      exact .thought isDelta rfl (applyThinkingDelta_eq_ok_iff.mpr ⟨unsigned, appended⟩)
    | signature signature isDelta isSignature written =>
      exact .signature isDelta rfl
        (applySignatureDelta_eq_ok_iff.mpr ⟨unsigned, signature, isSignature, written⟩)

theorem TakesThought.isSigned (isObject : block.isObject) (unsigned : isSigned block = false)
    (takes : TakesThought block delta filled) :
    (isSigned filled = false ∧ CarriesPiece "thinking_delta" "thinking" delta) ∨
      (isSigned filled ∧ CarriesSignature delta) := by
  cases takes with
  | thought piece isDelta isPiece written =>
    left
    constructor
    · rw [AgentProvider.isSigned, written, getStr_set_of_ne (by decide)]
      exact unsigned
    · exact ⟨isDelta, piece, isPiece⟩
  | signature signature isDelta isSignature written =>
    right
    constructor
    · obtain ⟨_, -, kept⟩ := bind_eq_some_iff.mp isSignature
      obtain ⟨rfl, filled⟩ := nonempty_eq_some kept
      rw [AgentProvider.isSigned, written, getStr_set_self isObject]
      simp [nonempty, filled]
    · exact ⟨isDelta, signature, isSignature⟩

theorem takesThought_of_carries
    (carries : CarriesPiece "thinking_delta" "thinking" delta ∨ CarriesSignature delta) :
    ∃ filled, TakesThought block delta filled := by
  obtain ⟨isDelta, piece, isPiece⟩ | ⟨isDelta, signature, isSignature⟩ := carries
  · exact ⟨_, .thought piece isDelta isPiece rfl⟩
  · exact ⟨_, .signature signature isDelta isSignature rfl⟩

theorem foldlM_applyDelta_cons {next : Json} {rest : List Json} {Filled : Json → Prop}
    (applied : applyDelta block delta = .ok next)
    (goesOn : ∃ filled, rest.foldlM applyDelta next = .ok filled ∧ Filled filled) :
    ∃ filled, (delta :: rest).foldlM applyDelta block = .ok filled ∧ Filled filled := by
  obtain ⟨filled, others, isFilled⟩ := goesOn
  refine ⟨filled, ?_, isFilled⟩
  exact bind_eq_ok.mpr ⟨next, applied, others⟩

theorem thinking_filled_iff (isType : block.getStr "type" = some "thinking") (deltas : List Json) :
    (∃ filled, deltas.foldlM applyDelta block = .ok filled ∧ isSigned filled) ↔
      if isSigned block then deltas = []
      else ∃ thoughts signature, deltas = thoughts ++ [signature] ∧
        (∀ delta ∈ thoughts, CarriesPiece "thinking_delta" "thinking" delta) ∧
        CarriesSignature signature := by
  induction deltas generalizing block with
  | nil =>
    cases signed : isSigned block with
    | true | false => simp [signed, pure, Except.pure]
  | cons delta _ ih =>
    have isObject := isObject_of_getStr isType
    have afterType : ∀ {next}, applyDelta block delta = .ok next →
        next.getStr "type" = some "thinking" := by
      intro next applied
      rw [sameHead_applyDelta applied "type" (by simp), isType]
    cases signed : isSigned block with
    | true =>
      constructor
      · rintro ⟨filled, ran, -⟩
        obtain ⟨next, applied, -⟩ := bind_eq_ok.mp ran
        have unsigned := ((applyDelta_thinking_iff isType).mp applied).1
        rw [signed] at unsigned
        cases unsigned
      · nofun
    | false =>
      constructor
      · rintro ⟨filled, ran, isFilled⟩
        obtain ⟨next, applied, others⟩ := bind_eq_ok.mp ran
        have later := (ih (afterType applied)).mp ⟨filled, others, isFilled⟩
        have takes := ((applyDelta_thinking_iff isType).mp applied).2
        obtain ⟨unsigned, carries⟩ | ⟨isSigned, carries⟩ := takes.isSigned isObject signed
        · rw [if_neg (by simp [unsigned])] at later
          obtain ⟨thoughts, signature, rfl, areThoughts, isSignature⟩ := later
          refine ⟨delta :: thoughts, signature, rfl, ?_, isSignature⟩
          exact forall_mem_cons.mpr ⟨carries, areThoughts⟩
        · rw [if_pos isSigned] at later
          subst later
          exact ⟨[], delta, rfl, by simp, carries⟩
      · rintro ⟨thoughts, signature, split, areThoughts, isSignature⟩
        cases thoughts with
        | nil =>
          cases split
          obtain ⟨next, takes⟩ := takesThought_of_carries (Or.inr isSignature)
          obtain ⟨-, isThought, -⟩ | ⟨isSigned, -⟩ := takes.isSigned isObject signed
          · simp [isSignature.1] at isThought
          · have applied := (applyDelta_thinking_iff isType).mpr ⟨signed, takes⟩
            have goesOn := (ih (afterType applied)).mpr (by rw [if_pos isSigned])
            exact foldlM_applyDelta_cons applied goesOn
        | cons _ others =>
          cases split
          have isThought := areThoughts delta (.head _)
          obtain ⟨next, takes⟩ := takesThought_of_carries (Or.inl isThought)
          obtain ⟨unsigned, -⟩ | ⟨-, isOther, -⟩ := takes.isSigned isObject signed
          · have applied := (applyDelta_thinking_iff isType).mpr ⟨signed, takes⟩
            have areOthers : ∀ other ∈ others,
                CarriesPiece "thinking_delta" "thinking" other := (forall_mem_cons.mp areThoughts).2
            have goesOn := (ih (afterType applied)).mpr (by
              rw [if_neg (by simp [unsigned])]
              exact ⟨others, signature, rfl, areOthers, isSignature⟩)
            exact foldlM_applyDelta_cons applied goesOn
          · simp [isThought.1] at isOther

theorem applyDelta_tool_iff (isType : block.getStr "type" = some blockType)
    (isTool : isToolType blockType) (isInput : block.getStr "input" = some start) :
    applyDelta block delta = .ok filled ↔
      ∃ piece, delta.getStr "type" = some "input_json_delta" ∧
        delta.getStr "partial_json" = some piece ∧
        filled = block.set "input" (.string (start ++ piece)) := by
  have named : blockType ≠ "" := by
    rintro rfl
    simp [isToolType] at isTool
  rw [applyDelta_eq_ok_iff (typed_of_getStr isType named)]
  constructor
  · intro takes
    cases takes with
    | input isDelta _ appended =>
      obtain ⟨piece, isPiece, written⟩ := appendRequiredJsonStringField_eq_ok_iff.mp appended
      rw [isInput] at written
      exact ⟨piece, isDelta, isPiece, written⟩
    | said _ isBlock | citation _ isBlock | thought _ isBlock | signature _ isBlock =>
      simp [isBlock, isToolType] at isTool
  · rintro ⟨piece, isDelta, isPiece, written⟩
    refine .input isDelta isTool (appendRequiredJsonStringField_eq_ok_iff.mpr ⟨piece, isPiece, ?_⟩)
    rw [isInput]
    exact written

theorem streamedInput_cons {piece : String} (isPiece : delta.getStr "partial_json" = some piece)
    (rest : List Json) : streamedInput (delta :: rest) = piece ++ streamedInput rest := by
  rw [streamedInput, map_cons, String.join_cons, validatedString, isPiece]
  rfl

section

variable (isType : block.getStr "type" = some blockType)
include isType

theorem input_set (input : String) :
    (block.set "input" (.string input)).getStr "type" = some blockType ∧
      (block.set "input" (.string input)).getStr "input" = some input := by
  rw [getStr_set_of_ne (by decide), getStr_set_self (isObject_of_getStr isType)]
  exact ⟨isType, rfl⟩

theorem input_of_filled (isTool : isToolType blockType)
    (isInput : block.getStr "input" = some start)
    (ran : deltas.foldlM applyDelta block = .ok filled) :
    (∀ delta ∈ deltas, CarriesPiece "input_json_delta" "partial_json" delta) ∧
      filled.getStr "input" = some (start ++ streamedInput deltas) := by
  induction deltas generalizing block start with
  | nil =>
    cases ran
    simp [isInput, streamedInput]
  | cons _ _ ih =>
    obtain ⟨_, applied, others⟩ := bind_eq_ok.mp ran
    obtain ⟨piece, isDelta, isPiece, rfl⟩ := (applyDelta_tool_iff isType isTool isInput).mp applied
    obtain ⟨sameType, sameInput⟩ := input_set isType (start ++ piece)
    obtain ⟨areRest, isFilled⟩ := ih sameType sameInput others
    constructor
    · exact forall_mem_cons.mpr ⟨⟨isDelta, piece, isPiece⟩, areRest⟩
    · rw [isFilled, streamedInput_cons isPiece, String.append_assoc]

theorem filled_of_pieces (isTool : isToolType blockType)
    (isInput : block.getStr "input" = some start)
    (arePieces : ∀ delta ∈ deltas, CarriesPiece "input_json_delta" "partial_json" delta) :
    ∃ filled, deltas.foldlM applyDelta block = .ok filled := by
  induction deltas generalizing block start with
  | nil => exact ⟨block, rfl⟩
  | cons _ _ ih =>
    obtain ⟨⟨isDelta, piece, isPiece⟩, areRest⟩ := forall_mem_cons.mp arePieces
    obtain ⟨sameType, sameInput⟩ := input_set isType (start ++ piece)
    have applied := (applyDelta_tool_iff isType isTool isInput).mpr ⟨piece, isDelta, isPiece, rfl⟩
    obtain ⟨filled, others⟩ := ih sameType sameInput areRest
    refine ⟨filled, ?_⟩
    exact bind_eq_ok.mpr ⟨_, applied, others⟩

end

theorem parseStreamedJsonObject_ok_iff {input : String} :
    (∃ value, parseStreamedJsonObject text input = .ok value) ↔ IsToolInput text input := by
  rw [parseStreamedJsonObject, IsToolInput]
  by_cases empty : input.isEmpty
  · simp [empty]
  · cases parsed : text.fromText input with
    | none => simp [empty, refuse]
    | some value =>
      by_cases isObject : value.isObject
      · simp [empty, isObject]
      · simp [empty, isObject, refuse]

theorem finalize_tool_iff {input : String} (isType : block.getStr "type" = some blockType)
    (isTool : isToolType blockType) (isInput : block.getStr "input" = some input) :
    (∃ final, finalizeStreamContentBlock text block = .ok final) ↔ IsToolInput text input := by
  have finalized : finalizeToolInput text block =
      (parseStreamedJsonObject text input).map fun value => block.set "input" value := by
    have parses : finalizeToolInput text block = parseToolInput text block := by
      rw [isToolType, Bool.or_eq_true, beq_iff_eq, beq_iff_eq] at isTool
      rw [finalizeToolInput, isType]
      obtain rfl | rfl := isTool <;> rfl
    rw [parses, parseToolInput, isInput]
    dsimp only
    cases parseStreamedJsonObject text input with
    | error | ok => rfl
  have notThinking : ∀ value, (block.set "input" value).getStr "type" ≠ some "thinking" := by
    intro value isThinking
    rw [getStr_set_of_ne (by decide), isType] at isThinking
    simp [Option.some.inj isThinking, isToolType] at isTool
  rw [← parseStreamedJsonObject_ok_iff, finalizeStreamContentBlock, finalized]
  cases parseStreamedJsonObject text input with
  | error => simp [Except.map, bind, Except.bind]
  | ok value => simp [Except.map, bind, Except.bind, notThinking value]

theorem finalize_thinking_iff (isType : block.getStr "type" = some "thinking") :
    (∃ final, finalizeStreamContentBlock text block = .ok final) ↔ isSigned block := by
  rw [finalizeStreamContentBlock, finalizeToolInput, isType]
  cases signed : isSigned block with
  | false => simp [bind, Except.bind, isType, signed, refuse]
  | true => simp [bind, Except.bind, signed]

theorem finalize_other (isType : block.getStr "type" = some blockType)
    (notTool : isToolType blockType = false) (notThinking : blockType ≠ "thinking") :
    finalizeStreamContentBlock text block = .ok block := by
  rw [isToolType, Bool.or_eq_false_iff, beq_eq_false_iff_ne, beq_eq_false_iff_ne] at notTool
  have unchanged : finalizeToolInput text block = .ok block := by
    rw [finalizeToolInput, isType]
    split
    · rename_i same
      exact absurd (Option.some.inj same) notTool.1
    · rename_i same
      exact absurd (Option.some.inj same) notTool.2
    · rfl
  rw [finalizeStreamContentBlock, unchanged]
  simp [bind, Except.bind, isType, notThinking]

section

variable (valid : validateAnthropicStreamContentStart block = .ok ())
include valid

theorem validStart_type : ∃ blockType, block.getStr "type" = some blockType ∧ blockType ≠ "" := by
  obtain ⟨blockType, typed, -⟩ := bind_eq_ok.mp valid
  obtain ⟨stored, isStored, kept⟩ :=
    bind_eq_some_iff.mp (anthropicBlockType_eq_ok_iff.mp typed)
  obtain ⟨-, filled⟩ := nonempty_eq_some kept
  refine ⟨stored, isStored, ?_⟩
  rintro rfl
  simp at filled

theorem validStart_text (isType : block.getStr "type" = some "text") : HasCitations block := by
  rw [validateAnthropicStreamContentStart,
    anthropicBlockType_eq_ok_iff.mpr (typed_of_getStr isType (by decide))] at valid
  obtain ⟨_, same, started⟩ := bind_eq_ok.mp valid
  cases same
  have checked : validateTextStart block = .ok () := started
  obtain ⟨_, -, emptied⟩ := bind_eq_ok.mp checked
  split at emptied
  · exact Or.inl (by assumption)
  · exact Or.inr (Or.inl (by assumption))
  · exact Or.inr (Or.inr ⟨_, by assumption⟩)
  · split at emptied <;> cases emptied

end

theorem normalize_text (isType : block.getStr "type" = some "text") :
    normalizeStreamContentStart block = block.set "text" (.string "") := by
  rw [normalizeStreamContentStart, isType]
  rfl

theorem normalize_thinking (isType : block.getStr "type" = some "thinking") :
    normalizeStreamContentStart block =
      (block.set "thinking" (.string "")).set "signature" (.string "") := by
  rw [normalizeStreamContentStart, isType]
  rfl

theorem normalize_tool (isType : block.getStr "type" = some blockType)
    (isTool : isToolType blockType) :
    normalizeStreamContentStart block = block.set "input" (.string "") := by
  rw [isToolType, Bool.or_eq_true, beq_iff_eq, beq_iff_eq] at isTool
  rw [normalizeStreamContentStart, isType]
  obtain rfl | rfl := isTool <;> rfl

/-- A block is filled and finished exactly by legal deltas. -/
theorem block_filled_iff (valid : validateAnthropicStreamContentStart block = .ok ())
    (isType : block.getStr "type" = some blockType) (deltas : List Json) :
    (∃ filled, deltas.foldlM applyDelta (normalizeStreamContentStart block) = .ok filled ∧
        ∃ final, finalizeStreamContentBlock text filled = .ok final) ↔
      LegalDeltas text blockType deltas := by
  have isObject := isObject_of_getStr isType
  have sameHead := sameHead_normalize block
  have opened : (normalizeStreamContentStart block).getStr "type" = some blockType := by
    rw [sameHead "type" (by simp), isType]
  have filledType : ∀ {filled}, deltas.foldlM applyDelta (normalizeStreamContentStart block) =
      .ok filled → filled.getStr "type" = some blockType := by
    intro filled ran
    rw [foldlM_sameHead ran "type" (by simp), opened]
  rw [LegalDeltas]
  split
  · rename_i isText
    subst isText
    have isTextBlock : TextBlock (normalizeStreamContentStart block) := by
      constructor
      · exact opened
      · rw [normalize_text isType, HasCitations, Json.get_set_of_ne (by decide)]
        exact validStart_text valid isType
    have taken : (∃ filled, deltas.foldlM applyDelta (normalizeStreamContentStart block) =
        .ok filled) ↔
        ∀ delta ∈ deltas, CarriesPiece "text_delta" "text" delta ∨ CarriesCitation delta :=
      foldlM_ok_iff (fun _ _ isText => isText.takes) (fun _ _ _ isText => isText.keeps)
        isTextBlock deltas
    rw [← taken]
    constructor
    · rintro ⟨filled, ran, -⟩
      exact ⟨filled, ran⟩
    · rintro ⟨filled, ran⟩
      exact ⟨filled, ran, filled, finalize_other (filledType ran) (by decide) (by decide)⟩
  · rename_i notText
    split
    · rename_i isThinking
      subst isThinking
      have unsigned : isSigned (normalizeStreamContentStart block) = false := by
        rw [normalize_thinking isType, isSigned,
          getStr_set_self (by rw [Json.isObject_set]; exact isObject)]
        rfl
      have filled := thinking_filled_iff opened deltas
      rw [if_neg (by simp [unsigned])] at filled
      rw [← filled]
      constructor
      · rintro ⟨filled, ran, closes⟩
        exact ⟨filled, ran, (finalize_thinking_iff (filledType ran)).mp closes⟩
      · rintro ⟨filled, ran, signed⟩
        exact ⟨filled, ran, (finalize_thinking_iff (filledType ran)).mpr signed⟩
    · rename_i notThinking
      split
      · rename_i isTool
        have isInput : (normalizeStreamContentStart block).getStr "input" = some "" := by
          rw [normalize_tool isType isTool]
          exact getStr_set_self isObject "input" ""
        constructor
        · rintro ⟨filled, ran, closes⟩
          obtain ⟨arePieces, isFilled⟩ := input_of_filled opened isTool isInput ran
          have stands := (finalize_tool_iff (filledType ran) isTool isFilled).mp closes
          exact ⟨arePieces, stands⟩
        · rintro ⟨arePieces, stands⟩
          obtain ⟨filled, ran⟩ := filled_of_pieces opened isTool isInput arePieces
          obtain ⟨-, isFilled⟩ := input_of_filled opened isTool isInput ran
          refine ⟨filled, ran, (finalize_tool_iff (filledType ran) isTool isFilled).mpr ?_⟩
          exact stands
      · rename_i notTool
        obtain ⟨_, same, named⟩ := validStart_type valid
        cases isType.symm.trans same
        have noTool : isToolType blockType = false := by simpa using notTool
        constructor
        · rintro ⟨filled, ran, -⟩
          cases deltas with
          | nil => rfl
          | cons =>
            obtain ⟨_, applied, -⟩ := bind_eq_ok.mp ran
            cases (applyDelta_eq_ok_iff (typed_of_getStr opened named)).mp applied with
            | input _ isTool => exact absurd isTool notTool
            | said _ isText | citation _ isText => exact absurd isText notText
            | thought _ isThinking | signature _ isThinking => exact absurd isThinking notThinking
        · rintro rfl
          exact ⟨_, rfl, _, finalize_other opened noTool notThinking⟩

end PiRelay.AgentProvider
