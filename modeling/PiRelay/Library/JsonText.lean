import Mathlib.Algebra.Order.BigOperators.Group.List
import Mathlib.Algebra.Order.Ring.Nat
import Mathlib.Data.String.Basic
import PiRelay.Library.Json

/-! The compact text of a JSON value and the bytes it takes, and equality of values. -/
namespace Library

open List

deriving instance DecidableEq for JsonNumber

namespace Json

mutual

def decEq : (one other : Json) → Decidable (one = other)
  | .null, .null => .isTrue rfl
  | .bool one, .bool other => decidable_of_iff (one = other) (by simp)
  | .number one, .number other => decidable_of_iff (one = other) (by simp)
  | .string one, .string other => decidable_of_iff (one = other) (by simp)
  | .array one, .array other =>
    match decEqItems one other with
    | .isTrue same => .isTrue (congrArg Json.array same)
    | .isFalse apart => .isFalse fun same => apart (Json.array.inj same)
  | .object one, .object other =>
    match decEqFields one other with
    | .isTrue same => .isTrue (congrArg Json.object same)
    | .isFalse apart => .isFalse fun same => apart (Json.object.inj same)
  | .null, .bool _ | .null, .number _ | .null, .string _ | .null, .array _ | .null, .object _ =>
    .isFalse nofun
  | .bool _, .null | .bool _, .number _ | .bool _, .string _ | .bool _, .array _
  | .bool _, .object _ => .isFalse nofun
  | .number _, .null | .number _, .bool _ | .number _, .string _ | .number _, .array _
  | .number _, .object _ => .isFalse nofun
  | .string _, .null | .string _, .bool _ | .string _, .number _ | .string _, .array _
  | .string _, .object _ => .isFalse nofun
  | .array _, .null | .array _, .bool _ | .array _, .number _ | .array _, .string _
  | .array _, .object _ => .isFalse nofun
  | .object _, .null | .object _, .bool _ | .object _, .number _ | .object _, .string _
  | .object _, .array _ => .isFalse nofun

def decEqItems : (one other : List Json) → Decidable (one = other)
  | [], [] => .isTrue rfl
  | [], _ :: _ => .isFalse nofun
  | _ :: _, [] => .isFalse nofun
  | one :: ones, other :: others =>
    match decEq one other, decEqItems ones others with
    | .isTrue same, .isTrue rest => .isTrue (by rw [same, rest])
    | .isFalse apart, _ => .isFalse fun same => apart (List.cons.inj same).1
    | _, .isFalse apart => .isFalse fun same => apart (List.cons.inj same).2

def decEqFields : (one other : List (String × Json)) → Decidable (one = other)
  | [], [] => .isTrue rfl
  | [], _ :: _ => .isFalse nofun
  | _ :: _, [] => .isFalse nofun
  | (name, one) :: ones, (otherName, other) :: others =>
    match decEq one other, decEqFields ones others with
    | .isTrue same, .isTrue rest =>
      if names : name = otherName then .isTrue (by rw [same, rest, names])
      else .isFalse fun equal => names (Prod.mk.inj (List.cons.inj equal).1).1
    | .isFalse apart, _ => .isFalse fun same => apart (Prod.mk.inj (List.cons.inj same).1).2
    | _, .isFalse apart => .isFalse fun same => apart (List.cons.inj same).2

end

instance : DecidableEq Json := decEq

/-- The parts with a comma between two of them. -/
def separated : List String → String
  | [] => ""
  | [part] => part
  | part :: next :: rest => part ++ "," ++ separated (next :: rest)

def hexDigits : List Char :=
  ['0', '1', '2', '3', '4', '5', '6', '7', '8', '9', 'a', 'b', 'c', 'd', 'e', 'f']

/-- A character as it stands in the text of a string: quotes, backslashes and controls are
written behind a backslash. -/
def escapeChar (char : Char) : List Char :=
  let backslash := Char.ofNat 92
  match char.toNat with
  | 34 | 92 => [backslash, char]
  | 8 => [backslash, 'b']
  | 9 => [backslash, 't']
  | 10 => [backslash, 'n']
  | 12 => [backslash, 'f']
  | 13 => [backslash, 'r']
  | code =>
    if code < 32 then
      [backslash, 'u', '0', '0', hexDigits.getD (code / 16) '0', hexDigits.getD (code % 16) '0']
    else [char]

def writeString (text : String) : String :=
  let quote := Char.ofNat 34
  String.ofList (quote :: text.toList.flatMap escapeChar ++ [quote])

mutual

/-- The compact text of a value. -/
def write : Json → String
  | .null => "null"
  | .bool value => if value then "true" else "false"
  | .number (.unsigned value) => toString value
  | .number (.other literal) => literal
  | .string value => writeString value
  | .array items => "[" ++ separated (writeItems items) ++ "]"
  | .object fields => "\x7b" ++ separated (writeFields fields) ++ "\x7d"

def writeItems : List Json → List String
  | [] => []
  | item :: rest => write item :: writeItems rest

def writeFields : List (String × Json) → List String
  | [] => []
  | (name, value) :: rest => (writeString name ++ ":" ++ write value) :: writeFields rest

end

/-- The bytes of a string in the text of a value. -/
def stringBytes (text : String) : Nat :=
  ((text.toList.flatMap escapeChar).map Char.utf8Size).sum + 2

mutual

/-- The bytes of the compact text of a value. -/
def bytes : Json → Nat
  | .null => 4
  | .bool value => if value then 4 else 5
  | .number (.unsigned value) => (toString value).utf8ByteSize
  | .number (.other literal) => literal.utf8ByteSize
  | .string value => stringBytes value
  | .array items => (itemBytes items).sum + (items.length - 1) + 2
  | .object fields => (fieldsBytes fields).sum + (fields.length - 1) + 2

def itemBytes : List Json → List Nat
  | [] => []
  | item :: rest => bytes item :: itemBytes rest

def fieldsBytes : List (String × Json) → List Nat
  | [] => []
  | (name, value) :: rest => (stringBytes name + 1 + bytes value) :: fieldsBytes rest

end

/-- The bytes that a field takes in the text of its object. -/
def fieldBytes (field : String × Json) : Nat := stringBytes field.1 + 1 + field.2.bytes

theorem itemBytes_eq (items : List Json) : itemBytes items = items.map bytes := by
  induction items with
  | nil => rfl
  | cons _ _ ih => rw [itemBytes, map_cons, ih]

theorem fieldsBytes_eq (fields : List (String × Json)) :
    fieldsBytes fields = fields.map fieldBytes := by
  induction fields with
  | nil => rfl
  | cons _ _ ih => rw [fieldsBytes, map_cons, ih, fieldBytes]

theorem array_bytes (items : List Json) :
    (array items).bytes = (items.map bytes).sum + (items.length - 1) + 2 := by
  rw [bytes, itemBytes_eq]

theorem object_bytes (fields : List (String × Json)) :
    (object fields).bytes = (fields.map fieldBytes).sum + (fields.length - 1) + 2 := by
  rw [bytes, fieldsBytes_eq]

theorem ofList_bytes (chars : List Char) :
    (String.ofList chars).utf8ByteSize = (chars.map Char.utf8Size).sum := by
  rw [String.utf8ByteSize_ofList]
  induction chars with
  | nil => rfl
  | cons _ _ ih => rw [String.utf8Len_cons, ih, map_cons, sum_cons, Nat.add_comm]

theorem writeString_bytes (text : String) : (writeString text).utf8ByteSize = stringBytes text := by
  have quote : (Char.ofNat 34).utf8Size = 1 := by decide
  rw [writeString, stringBytes, ofList_bytes]
  simp only [map_append, map_cons, map_nil, sum_append, sum_cons, sum_nil, cons_append, quote]
  omega

theorem separated_bytes (parts : List String) :
    (separated parts).utf8ByteSize
      = (parts.map String.utf8ByteSize).sum + (parts.length - 1) := by
  induction parts with
  | nil => rfl
  | cons _ rest ih =>
    cases rest with
    | nil => simp [separated]
    | cons =>
      have comma : (",").utf8ByteSize = 1 := rfl
      rw [separated, String.utf8ByteSize_append, String.utf8ByteSize_append, ih, comma]
      simp only [map_cons, sum_cons, length_cons]
      omega

mutual

/-- The bytes of a text are counted along its value. -/
theorem write_bytes : (value : Json) → value.write.utf8ByteSize = value.bytes
  | .null => rfl
  | .bool true => rfl
  | .bool false => rfl
  | .number (.unsigned _) => rfl
  | .number (.other _) => rfl
  | .string text => writeString_bytes text
  | .array items => by
    have parts := writeItems_bytes items
    have opens : ("[").utf8ByteSize = 1 := rfl
    have closes : ("]").utf8ByteSize = 1 := rfl
    have count : (writeItems items).length = items.length := by
      simpa [itemBytes_eq] using congrArg List.length parts
    rw [write, bytes, String.utf8ByteSize_append, String.utf8ByteSize_append, separated_bytes,
      parts, count, opens, closes]
    omega
  | .object fields => by
    have parts := writeFields_bytes fields
    have opens : ("\x7b").utf8ByteSize = 1 := rfl
    have closes : ("\x7d").utf8ByteSize = 1 := rfl
    have count : (writeFields fields).length = fields.length := by
      simpa [fieldsBytes_eq] using congrArg List.length parts
    rw [write, bytes, String.utf8ByteSize_append, String.utf8ByteSize_append, separated_bytes,
      parts, count, opens, closes]
    omega

theorem writeItems_bytes : (items : List Json) →
    (writeItems items).map String.utf8ByteSize = itemBytes items
  | [] => rfl
  | item :: rest => by
    rw [writeItems, itemBytes, map_cons, write_bytes item, writeItems_bytes rest]

theorem writeFields_bytes : (fields : List (String × Json)) →
    (writeFields fields).map String.utf8ByteSize = fieldsBytes fields
  | [] => rfl
  | (name, value) :: rest => by
    have colon : (":").utf8ByteSize = 1 := rfl
    rw [writeFields, fieldsBytes, map_cons, String.utf8ByteSize_append,
      String.utf8ByteSize_append, writeString_bytes, colon, write_bytes value,
      writeFields_bytes rest]

end

theorem array_bytes_le_of_sublist {kept all : List Json} (part : kept.Sublist all) :
    (array kept).bytes ≤ (array all).bytes := by
  have fewer := part.length_le
  have less := (part.map bytes).sum_le_sum fun _ _ => Nat.zero_le _
  rw [array_bytes, array_bytes]
  omega

theorem object_bytes_le_of_sublist {kept all : List (String × Json)} (part : kept.Sublist all) :
    (object kept).bytes ≤ (object all).bytes := by
  have fewer := part.length_le
  have less := (part.map fieldBytes).sum_le_sum fun _ _ => Nat.zero_le _
  rw [object_bytes, object_bytes]
  omega

end Json

end Library
