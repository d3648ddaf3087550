import PiRelay.Library.Json

/-! Leaving fields out of a JSON value, at its top or at every depth. -/
namespace Library.Json

open List

/-- An object without the fields of one name. -/
def dropField (name : String) : Json → Json
  | .object fields => .object (fields.filter fun field => field.1 != name)
  | value => value

mutual

/-- A value without the fields of one name, at every depth. -/
def without (name : String) : Json → Json
  | .array items => .array (withoutItems name items)
  | .object fields => .object (withoutFields name fields)
  | value => value

def withoutItems (name : String) : List Json → List Json
  | [] => []
  | item :: rest => item.without name :: withoutItems name rest

def withoutFields (name : String) : List (String × Json) → List (String × Json)
  | [] => []
  | (key, value) :: rest =>
    if key = name then withoutFields name rest
    else (key, value.without name) :: withoutFields name rest

end

variable {name key : String}

theorem withoutItems_append (name : String) (items others : List Json) :
    withoutItems name (items ++ others) = withoutItems name items ++ withoutItems name others := by
  induction items with
  | nil => rfl
  | cons _ _ ih => rw [cons_append, withoutItems, withoutItems, ih, cons_append]

theorem withoutFields_setField_self (field : Json) (fields : List (String × Json)) :
    withoutFields name (setField name field fields) = withoutFields name fields := by
  induction fields with
  | nil => simp only [setField, withoutFields, if_true]
  | cons first _ ih =>
    obtain ⟨key, -⟩ := first
    by_cases same : key = name
    · simp only [setField, withoutFields, same, if_true]
    · simp only [setField, withoutFields, same, if_false, ih]

theorem withoutFields_setField_of_ne (apart : key ≠ name) (field : Json)
    (fields : List (String × Json)) : withoutFields name (setField key field fields) =
      setField key (field.without name) (withoutFields name fields) := by
  induction fields with
  | nil => simp only [setField, withoutFields, apart, if_false]
  | cons first _ ih =>
    obtain ⟨other, -⟩ := first
    by_cases same : other = key
    · subst same
      simp only [setField, withoutFields, apart, if_false, if_true]
    · by_cases left : other = name
      · subst left
        simp only [setField, withoutFields, same, if_false, if_true, ih]
      · simp only [setField, withoutFields, same, left, if_false, ih]

theorem without_set_self (value field : Json) :
    (value.set name field).without name = value.without name := by
  cases value with
  | object fields => exact congrArg object (withoutFields_setField_self field fields)
  | _ => rfl

theorem without_set_of_ne (apart : key ≠ name) (value field : Json) :
    (value.set key field).without name = (value.without name).set key (field.without name) := by
  cases value with
  | object fields => exact congrArg object (withoutFields_setField_of_ne apart field fields)
  | _ => rfl

theorem dropField_set_self (value field : Json) :
    (value.set name field).dropField name = value.dropField name := by
  cases value with
  | object fields =>
    apply congrArg object
    induction fields with
    | nil => simp [setField]
    | cons first => by_cases same : first.1 = name <;> simp_all [setField]
  | _ => rfl

theorem dropField_set_of_ne (apart : key ≠ name) (value field : Json) :
    (value.set key field).dropField name = (value.dropField name).set key field := by
  cases value with
  | object fields =>
    apply congrArg object
    induction fields with
    | nil => simp [setField, apart]
    | cons first =>
      by_cases same : first.1 = key
      · simp [setField, same, apart]
      · by_cases left : first.1 = name <;> simp_all [setField]
  | _ => rfl

theorem set_get_self {value field : Json} (holds : value.get name = some field) :
    value.set name field = value := by
  cases value with
  | object fields =>
    apply congrArg object
    rw [get] at holds
    induction fields with
    | nil => cases holds
    | cons first _ ih =>
      obtain ⟨other, _⟩ := first
      rw [lookup_cons] at holds
      by_cases same : other = name
      · subst same
        simp_all [setField]
      · have apart := beq_eq_false_iff_ne.mpr (Ne.symm same)
        rw [apart] at holds
        simp only [setField, same, if_false, ih holds]
  | _ => cases holds

theorem withoutItems_eq (name : String) (items : List Json) :
    withoutItems name items = items.map (without name) := by
  induction items with
  | nil => rfl
  | cons _ _ ih => rw [withoutItems, ih, map_cons]

theorem get_without (apart : key ≠ name) (value : Json) :
    (value.without name).get key = (value.get key).map (without name) := by
  cases value with
  | object fields =>
    simp only [without, get]
    induction fields with
    | nil => rfl
    | cons first _ ih =>
      obtain ⟨other, -⟩ := first
      rw [withoutFields, lookup_cons]
      split
      · rename_i erased
        rw [ih, erased, beq_eq_false_iff_ne.mpr apart]
      · rw [lookup_cons, ih]
        cases key == other <;> rfl
  | _ => rfl

theorem getStr_without (apart : key ≠ name) (value : Json) :
    (value.without name).getStr key = value.getStr key := by
  rw [getStr, getStr, get_without apart]
  cases value.get key with
  | none => rfl
  | some field => cases field <;> rfl

end Library.Json
