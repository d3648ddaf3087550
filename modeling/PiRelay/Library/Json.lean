import Mathlib.Data.List.Basic

/-! JSON values as a program holds them after parsing. The fields of an object are kept in a
list; reading one finds the first under its name, writing one replaces it or adds it. -/
namespace Library

open List

inductive JsonNumber where
  | unsigned (value : Nat)
  | other (literal : String)

inductive Json where
  | null
  | bool (value : Bool)
  | number (value : JsonNumber)
  | string (value : String)
  | array (items : List Json)
  | object (fields : List (String × Json))

namespace Json

def get (value : Json) (name : String) : Option Json :=
  match value with
  | .object fields => fields.lookup name
  | _ => none

def asStr : Json → Option String
  | .string value => some value
  | _ => none

def asArray : Json → Option (List Json)
  | .array items => some items
  | _ => none

def asU64 : Json → Option Nat
  | .number (.unsigned value) => some value
  | _ => none

def isObject : Json → Bool
  | .object _ => true
  | _ => false

/-- The string under a name. -/
def getStr (value : Json) (name : String) : Option String := (value.get name).bind asStr

/-- The array under a name. -/
def getArray (value : Json) (name : String) : Option (List Json) := (value.get name).bind asArray

/-- A value that is reached through the names of nested objects. -/
def pointer (value : Json) : List String → Option Json
  | [] => some value
  | name :: rest => (value.get name).bind fun inner => inner.pointer rest

def setField (name : String) (value : Json) : List (String × Json) → List (String × Json)
  | [] => [(name, value)]
  | field :: rest =>
    if field.1 = name then (name, value) :: rest else field :: setField name value rest

/-- An object with a field written; any other value stays as it is. -/
def set (value : Json) (name : String) (field : Json) : Json :=
  match value with
  | .object fields => .object (setField name field fields)
  | value => value

variable {name : String} {value : Json}

theorem lookup_setField_of_ne {other : String} (apart : other ≠ name) (value : Json)
    (fields : List (String × Json)) :
    (setField name value fields).lookup other = fields.lookup other := by
  have differs := beq_eq_false_iff_ne.mpr apart
  induction fields with
  | nil => rw [setField, lookup_cons, differs]
  | cons field _ ih =>
    rw [setField]
    split
    · rename_i same
      obtain ⟨first, _⟩ := field
      obtain rfl : first = name := same
      rw [lookup_cons, lookup_cons, differs]
    · rw [lookup_cons, lookup_cons, ih]

theorem lookup_setField_self (name : String) (value : Json) (fields : List (String × Json)) :
    (setField name value fields).lookup name = some value := by
  induction fields with
  | nil => simp [setField]
  | cons field _ ih =>
    rw [setField]
    split
    · simp
    · rename_i other
      have apart : (name == field.1) = false := by
        rw [beq_eq_false_iff_ne]
        exact fun same => other same.symm
      rw [lookup_cons, apart]
      exact ih

theorem get_set_of_ne {other : String} (apart : other ≠ name) (value field : Json) :
    (value.set name field).get other = value.get other := by
  cases value with
  | object fields => exact lookup_setField_of_ne apart field fields
  | _ => rfl

theorem get_set_self (isObject : value.isObject) (name : String) (field : Json) :
    (value.set name field).get name = some field := by
  cases value with
  | object fields => exact lookup_setField_self name field fields
  | _ => cases isObject

theorem setField_setField (name : String) (first second : Json) (fields : List (String × Json)) :
    setField name second (setField name first fields) = setField name second fields := by
  induction fields with
  | nil => simp [setField]
  | cons field _ ih =>
    by_cases same : field.1 = name
    · simp [setField, same]
    · simp [setField, same, ih]

@[simp] theorem set_set (value : Json) (name : String) (first second : Json) :
    (value.set name first).set name second = value.set name second := by
  cases value with
  | object fields => exact congrArg object (setField_setField name first second fields)
  | _ => rfl

theorem isObject_of_get {field : Json} (found : value.get name = some field) : value.isObject := by
  cases value with
  | object => rfl
  | _ => cases found

theorem isObject_set (value : Json) (name : String) (field : Json) :
    (value.set name field).isObject = value.isObject := by
  cases value with
  | object => rfl
  | _ => rfl

theorem getStr_eq_some {text : String} (found : value.getStr name = some text) :
    value.get name = some (.string text) := by
  obtain ⟨field, isField, isText⟩ := Option.bind_eq_some_iff.mp found
  cases field with
  | string =>
    cases isText
    exact isField
  | _ => cases isText

end Json

end Library
