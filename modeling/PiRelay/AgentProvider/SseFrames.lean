import PiRelay.AgentProvider.ModelResponse
import PiRelay.Library.Framing
import PiRelay.Library.Text

/-! The reader of server-sent events. A blank line ends a frame, with line feeds or with
carriage returns before them; a frame carries the JSON of its data lines. -/
namespace PiRelay.AgentProvider

open List Option
open Library (Framing Json lines stripPrefix trim)

inductive SseStreamEnd where
  | terminal
  | eof

def windowPosition (pattern : List UInt8) : List UInt8 → Option Nat
  | [] => none
  | byte :: rest =>
    if pattern.isPrefixOf (byte :: rest) then some 0
    else (windowPosition pattern rest).map (· + 1)

def lfSeparator : List UInt8 := [10, 10]
def crlfSeparator : List UInt8 := [13, 10, 13, 10]

def sseFrameBoundary (buffer : List UInt8) : Option (Nat × Nat) :=
  match windowPosition lfSeparator buffer, windowPosition crlfSeparator buffer with
  | some lf, some crlf => if lf < crlf then some (lf, 2) else some (crlf, 4)
  | some lf, none => some (lf, 2)
  | none, some crlf => some (crlf, 4)
  | none, none => none

variable {pattern buffer : List UInt8} {index : Nat}

section

variable (found : windowPosition pattern buffer = some index)
include found

theorem prefix_of_windowPosition : pattern <+: buffer.drop index := by
  induction buffer generalizing index with
  | nil => cases found
  | cons _ _ ih =>
    rw [windowPosition] at found
    split at found
    · rename_i here
      cases found
      exact isPrefixOf_iff_prefix.mp here
    · obtain ⟨_, isLater, rfl⟩ := map_eq_some_iff.mp found
      exact ih isLater

theorem windowPosition_bound (nonempty : pattern ≠ []) :
    index + pattern.length ≤ buffer.length := by
  have fits := (prefix_of_windowPosition found).length_le
  have := length_pos_of_ne_nil nonempty
  rw [length_drop] at fits
  omega

end

theorem windowPosition_append_iff (nonempty : pattern ≠ []) {later : List UInt8}
    (within : index + pattern.length ≤ buffer.length) :
    windowPosition pattern (buffer ++ later) = some index ↔
      windowPosition pattern buffer = some index := by
  induction buffer generalizing index with
  | nil =>
    have := length_pos_of_ne_nil nonempty
    rw [length_nil] at within
    omega
  | cons byte rest ih =>
    have same : pattern <+: byte :: (rest ++ later) ↔ pattern <+: byte :: rest := by
      have whole := prefix_append (byte :: rest) later
      exact ⟨fun here => prefix_of_prefix_length_le here whole (by omega), (·.trans whole)⟩
    rw [cons_append, windowPosition, windowPosition]
    simp only [ isPrefixOf_iff_prefix, same]
    split
    · rfl
    · cases index with
      | zero => simp
      | succ => simpa using ih (by rw [length_cons] at within; omega)

theorem windowPosition_append (nonempty : pattern ≠ [])
    (found : windowPosition pattern buffer = some index) (later : List UInt8) :
    windowPosition pattern (buffer ++ later) = some index :=
  (windowPosition_append_iff nonempty (windowPosition_bound found nonempty)).mpr found

theorem windowPosition_getElem (found : windowPosition pattern buffer = some index) {offset : Nat}
    (inside : offset < pattern.length) : buffer[index + offset]? = pattern[offset]? := by
  obtain ⟨_, split⟩ := prefix_of_windowPosition found
  rw [← getElem?_drop, ← split, getElem?_append_left inside]

theorem lf_lt_crlf {lf crlf : Nat} (isLf : windowPosition lfSeparator buffer = some lf)
    (isCrlf : windowPosition crlfSeparator buffer = some crlf) (earlier : lf + 2 < crlf + 4) :
    lf < crlf := by
  have first : buffer[lf]? = some 10 := windowPosition_getElem isLf (by decide : 0 < 2)
  have second := windowPosition_getElem isLf (by decide : 1 < 2)
  have start : buffer[crlf]? = some 13 := windowPosition_getElem isCrlf (by decide : 0 < 4)
  have middle : buffer[crlf + 2]? = some 13 := windowPosition_getElem isCrlf (by decide : 2 < 4)
  by_contra late
  obtain rfl | rfl : lf = crlf ∨ lf = crlf + 1 := by omega
  · rw [first] at start
    exact absurd start (by decide)
  · rw [second] at middle
    exact absurd middle (by decide)

theorem sseFrameBoundary_progress {found : Nat × Nat}
    (boundary : sseFrameBoundary buffer = some found) :
    0 < found.2 ∧ found.1 + found.2 ≤ buffer.length := by
  have lfBound (lf : Nat) (isLf : windowPosition lfSeparator buffer = some lf) :
      lf + 2 ≤ buffer.length := windowPosition_bound isLf (by decide)
  have crlfBound (crlf : Nat) (isCrlf : windowPosition crlfSeparator buffer = some crlf) :
      crlf + 4 ≤ buffer.length := windowPosition_bound isCrlf (by decide)
  rw [sseFrameBoundary] at boundary
  split at boundary
  · rename_i lf crlf isLf isCrlf
    split at boundary <;> obtain rfl := Option.some.inj boundary
    · exact ⟨Nat.succ_pos _, lfBound lf isLf⟩
    · exact ⟨Nat.succ_pos _, crlfBound crlf isCrlf⟩
  · rename_i lf isLf _
    cases boundary
    exact ⟨Nat.succ_pos _, lfBound lf isLf⟩
  · rename_i crlf _ isCrlf
    cases boundary
    exact ⟨Nat.succ_pos _, crlfBound crlf isCrlf⟩
  · cases boundary

/-- A boundary that was found stays where it is. -/
theorem sseFrameBoundary_append {found : Nat × Nat}
    (boundary : sseFrameBoundary buffer = some found) (later : List UInt8) :
    sseFrameBoundary (buffer ++ later) = some found := by
  have lfStays (lf : Nat) (isLf : windowPosition lfSeparator buffer = some lf) :=
    windowPosition_append (by decide) isLf later
  have crlfStays (crlf : Nat) (isCrlf : windowPosition crlfSeparator buffer = some crlf) :=
    windowPosition_append (by decide) isCrlf later
  rw [sseFrameBoundary] at boundary
  split at boundary
  · rename_i lf crlf isLf isCrlf
    rw [sseFrameBoundary, lfStays lf isLf, crlfStays crlf isCrlf]
    exact boundary
  · rename_i lf isLf noCrlf
    rw [sseFrameBoundary, lfStays lf isLf]
    cases isCrlf : windowPosition crlfSeparator (buffer ++ later) with
    | none => exact boundary
    | some crlf =>
      have reaches : ¬ crlf + 4 ≤ buffer.length := fun within => by
        rw [(windowPosition_append_iff (by decide) within).mp isCrlf] at noCrlf
        cases noCrlf
      have bound : lf + 2 ≤ buffer.length := windowPosition_bound isLf (by decide)
      have less := lf_lt_crlf (lfStays lf isLf) isCrlf (by omega)
      simp only [less, if_true]
      exact boundary
  · rename_i crlf noLf isCrlf
    rw [sseFrameBoundary, crlfStays crlf isCrlf]
    cases isLf : windowPosition lfSeparator (buffer ++ later) with
    | none => exact boundary
    | some lf =>
      have reaches : ¬ lf + 2 ≤ buffer.length := fun within => by
        rw [(windowPosition_append_iff (by decide) within).mp isLf] at noLf
        cases noLf
      have bound : crlf + 4 ≤ buffer.length := windowPosition_bound isCrlf (by decide)
      have notLess : ¬ lf < crlf := by omega
      simp only [notLess, if_false]
      exact boundary
  · cases boundary

def sseFraming : Framing UInt8 where
  boundary := sseFrameBoundary
  progress := sseFrameBoundary_progress
  stable := sseFrameBoundary_append

inductive SseFrame where
  | json (data : String)
  | done

def isAsciiWhitespace (byte : UInt8) : Bool := [9, 10, 12, 13, 32].contains byte

section Reading

variable {State : Type} (fromUtf8Lossy : List UInt8 → String) (fromStr : String → Option Json)
  (onEvent : State → SseEvent → State × ProviderResult SseControl)

def sseFrameData (frame : List UInt8) : Option SseFrame :=
  let frame := (fromUtf8Lossy frame).toList
  let data := (lines frame).filterMap fun line =>
    (stripPrefix "data:".toList line).map trim
  let data := trim (['\n'].intercalate data)
  if data.isEmpty then none
  else if data = "[DONE]".toList then some .done
  else some (.json (String.ofList data))

/-- What a callback was given so far, and its state. -/
structure SseReading (State : Type) where
  delivered : List SseEvent
  state : State

variable (reading : SseReading State)

def deliver (event : SseEvent) : SseReading State × ProviderResult SseControl :=
  let (state, result) := onEvent reading.state event
  ({ delivered := reading.delivered ++ [event], state }, result)

def processSseFrame (frame : List UInt8) : SseReading State × ProviderResult SseControl :=
  match sseFrameData fromUtf8Lossy frame with
  | some (.json data) =>
    match fromStr data with
    | none => deliver onEvent reading .malformedJson
    | some event => deliver onEvent reading (.json event)
  | some .done => deliver onEvent reading .done
  | none => (reading, .ok .more)

/-- What ends the reading at a frame: the callback asks to stop, or it fails. -/
def frameOutcome : ProviderResult SseControl → Option (ProviderResult SseStreamEnd)
  | .ok .more => none
  | .ok .stop => some (.ok .terminal)
  | .error fault => some (.error fault)

def processFrame (frame : List UInt8) : SseReading State × Option (ProviderResult SseStreamEnd) :=
  let (after, result) := processSseFrame fromUtf8Lossy fromStr onEvent reading frame
  (after, frameOutcome result)

def processFinalSseFrame (frame : List UInt8) : SseReading State × ProviderResult SseControl :=
  if frame.all isAsciiWhitespace then (reading, .ok .more)
  else processSseFrame fromUtf8Lossy fromStr onEvent reading frame

/-- The end of a stream whose frames are all processed but what is left in the buffer. -/
def finishReading (buffer : List UInt8) : SseReading State × ProviderResult SseStreamEnd :=
  match processFinalSseFrame fromUtf8Lossy fromStr onEvent reading buffer with
  | (after, .ok .stop) => (after, .ok .terminal)
  | (after, .ok .more) => (after, .ok .eof)
  | (after, .error fault) => (after, .error fault)

/-- A response as the transport delivers it: its chunks end with the body, or with a failure
of the transport or of the idle timer. -/
structure SseResponse where
  status : Nat
  chunks : List (List UInt8)
  failure : Option ProviderError

def SseResponse.isSuccess (response : SseResponse) : Bool :=
  200 ≤ response.status && response.status < 300

def readProviderJsonSseResponse (responseErrorMessage : String → String) (response : SseResponse)
    (state : State) : SseReading State × ProviderResult SseStreamEnd :=
  let reading : SseReading State := { delivered := [], state }
  if response.isSuccess then
    match sseFraming.feed (processFrame fromUtf8Lossy fromStr onEvent) reading []
        response.chunks with
    | (after, .inl outcome) => (after, outcome)
    | (after, .inr buffer) =>
      match response.failure with
      | some fault => (after, .error fault)
      | none => finishReading fromUtf8Lossy fromStr onEvent after buffer
  else
    match response.failure with
    | some fault => (reading, .error fault)
    | none =>
      (reading, .error (.status response.status
        (responseErrorMessage (fromUtf8Lossy response.chunks.flatten))))

def readJsonSseText (text : List UInt8) (state : State) :
    SseReading State × ProviderResult SseStreamEnd :=
  match sseFraming.drain (processFrame fromUtf8Lossy fromStr onEvent)
      { delivered := [], state } text with
  | (after, .inl outcome) => (after, outcome)
  | (after, .inr buffer) => finishReading fromUtf8Lossy fromStr onEvent after buffer

/-- The cut of a body into chunks does not show: the callback is given the same events, it is
left in the same state, and the reading ends the same way. -/
theorem readProviderJsonSseResponse_eq (responseErrorMessage : String → String)
    (response : SseResponse) (state : State) (success : response.isSuccess = true)
    (complete : response.failure = none) :
    readProviderJsonSseResponse fromUtf8Lossy fromStr onEvent responseErrorMessage response state =
      readJsonSseText fromUtf8Lossy fromStr onEvent response.chunks.flatten state := by
  rw [readProviderJsonSseResponse, if_pos success, complete,
    Framing.feed_eq_drain (show sseFraming.boundary [] = none from rfl), nil_append]
  rfl

end Reading

/-! A body cut within a separator with carriage returns, and a callback that stops at the
sentinel. -/

def asciiText (bytes : List UInt8) : String :=
  String.ofList (bytes.map fun byte => Char.ofNat byte.toNat)

def emptyObject (text : String) : Option Json := if text = "\x7b\x7d" then some (.object []) else none

def stopAtDone (_ : Unit) : SseEvent → Unit × ProviderResult SseControl
  | .done => ((), .ok .stop)
  | _ => ((), .ok .more)

def asciiBytes (text : String) : List UInt8 := text.toList.map fun char => UInt8.ofNat char.toNat

def cutResponse : SseResponse where
  status := 200
  chunks := ["data: \x7b\x7d\r\n", "\r", "\ndata: [DO", "NE]\n", "\n"].map asciiBytes
  failure := none

theorem readProviderJsonSseResponse_eq_cut :
    readProviderJsonSseResponse asciiText emptyObject stopAtDone id cutResponse () =
      readJsonSseText asciiText emptyObject stopAtDone cutResponse.chunks.flatten () :=
  readProviderJsonSseResponse_eq _ _ _ _ _ _ rfl rfl

end PiRelay.AgentProvider
