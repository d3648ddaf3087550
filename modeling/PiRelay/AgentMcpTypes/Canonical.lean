import PiRelay.AgentMcpTypes.Catalog

/-! Canonical values: making a value canonical twice changes nothing more, it adds no depth,
and the bytes of its text are those of its parts. -/
namespace PiRelay.AgentMcpTypes

open Library List

variable (values : List Json)

theorem canonicalItems_eq : canonicalItems values = values.map canonicalJson := by
  induction values with
  | nil => rfl
  | cons _ _ ih => rw [canonicalItems, map_cons, ih]

theorem canonicalFields_eq (fields : List (String × Json)) :
    canonicalFields fields = fields.map fun field => (field.1, canonicalJson field.2) := by
  induction fields with
  | nil => rfl
  | cons _ _ ih => rw [canonicalFields, map_cons, ih]

theorem canonicalFields_keys (fields : List (String × Json)) :
    (canonicalFields fields).map Prod.fst = fields.map Prod.fst := by
  rw [canonicalFields_eq, map_map]
  rfl

variable {fields : List (String × Json)} {depth bound : Nat}

theorem canonicalFields_of_canonical (canonical : ∀ field ∈ fields, canonicalJson field.2 = field.2) :
    canonicalFields fields = fields := by
  induction fields with
  | nil => rfl
  | cons field _ ih =>
    rw [canonicalFields, canonical field mem_cons_self, ih (forall_mem_cons.mp canonical).2]

mutual

theorem canonicalJson_idem : (value : Json) →
    canonicalJson (canonicalJson value) = canonicalJson value
  | .null => rfl
  | .bool _ => rfl
  | .number _ => rfl
  | .string _ => rfl
  | .array values => by rw [canonicalJson, canonicalJson, canonicalItems_idem values]
  | .object fields => by
    have stays := canonicalFields_of_canonical fun field mem =>
      canonicalFields_canonical fields field (mem_of_mem_collectEntries mem)
    rw [canonicalJson, canonicalJson, stays, collectEntries_of_ascends (collectEntries_ascends _)]

theorem canonicalItems_idem : (values : List Json) →
    canonicalItems (canonicalItems values) = canonicalItems values
  | [] => rfl
  | value :: rest => by
    rw [canonicalItems, canonicalItems, canonicalJson_idem value, canonicalItems_idem rest]

theorem canonicalFields_canonical : (fields : List (String × Json)) →
    ∀ field ∈ canonicalFields fields, canonicalJson field.2 = field.2
  | [], _, mem => by cases mem
  | first :: rest, field, mem => by
    rcases mem_cons.mp mem with rfl | inRest
    · exact canonicalJson_idem first.2
    · exact canonicalFields_canonical rest field inRest

end

attribute [simp] canonicalJson_idem

@[simp] theorem canonicalBytes_canonicalJson (value : Json) :
    canonicalBytes (canonicalJson value) = canonicalBytes value := by
  rw [canonicalBytes, canonicalJson_idem, canonicalBytes]

theorem itemDepths_eq (depth : Nat) : itemDepths values depth = values.map (jsonDepth · depth) := by
  induction values with
  | nil => rfl
  | cons _ _ ih => rw [itemDepths, map_cons, ih]

theorem fieldDepths_eq (fields : List (String × Json)) (depth : Nat) :
    fieldDepths fields depth = fields.map fun field => jsonDepth field.2 depth := by
  induction fields with
  | nil => rfl
  | cons _ _ ih => rw [fieldDepths, map_cons, ih]

private theorem max_depths_le_iff {depths : List Nat} (least : ∀ part ∈ depths, depth ≤ part) :
    depths.max?.getD depth ≤ bound ↔ depth ≤ bound ∧ ∀ part ∈ depths, part ≤ bound := by
  cases isMax : depths.max? with
  | none => simp [max?_eq_none_iff.mp isMax]
  | some deepest =>
    obtain ⟨mem, most⟩ := max?_eq_some_iff.mp isMax
    constructor
    · intro atMost
      constructor
      · exact (least deepest mem).trans atMost
      · exact fun part hPart => (most part hPart).trans atMost
    · exact fun bounded => bounded.2 deepest mem

mutual

theorem le_jsonDepth : (value : Json) → (depth : Nat) → depth ≤ jsonDepth value depth
  | .null, _ => Nat.le_refl _
  | .bool _, _ => Nat.le_refl _
  | .number _, _ => Nat.le_refl _
  | .string _, _ => Nat.le_refl _
  | .array values, depth => by
    have least := fun part mem => Nat.le_of_succ_le (le_itemDepths values (depth + 1) part mem)
    exact ((max_depths_le_iff least).mp (Nat.le_refl _)).1
  | .object fields, depth => by
    have least := fun part mem => Nat.le_of_succ_le (le_fieldDepths fields (depth + 1) part mem)
    exact ((max_depths_le_iff least).mp (Nat.le_refl _)).1

theorem le_itemDepths : (values : List Json) → (depth : Nat) →
    ∀ part ∈ itemDepths values depth, depth ≤ part
  | [], _, _, mem => by cases mem
  | value :: rest, depth, part, mem => by
    rcases mem_cons.mp mem with rfl | inRest
    · exact le_jsonDepth value depth
    · exact le_itemDepths rest depth part inRest

theorem le_fieldDepths : (fields : List (String × Json)) → (depth : Nat) →
    ∀ part ∈ fieldDepths fields depth, depth ≤ part
  | [], _, _, mem => by cases mem
  | field :: rest, depth, part, mem => by
    rcases mem_cons.mp mem with rfl | inRest
    · exact le_jsonDepth field.2 depth
    · exact le_fieldDepths rest depth part inRest

end

theorem jsonDepth_array_le_iff {values : List Json} :
    jsonDepth (.array values) depth ≤ bound ↔
      depth ≤ bound ∧ ∀ value ∈ values, jsonDepth value (depth + 1) ≤ bound := by
  have least := fun part mem => Nat.le_of_succ_le (le_itemDepths values (depth + 1) part mem)
  rw [jsonDepth, max_depths_le_iff least, itemDepths_eq, forall_mem_map]

theorem jsonDepth_object_le_iff :
    jsonDepth (.object fields) depth ≤ bound ↔
      depth ≤ bound ∧ ∀ field ∈ fields, jsonDepth field.2 (depth + 1) ≤ bound := by
  have least := fun part mem => Nat.le_of_succ_le (le_fieldDepths fields (depth + 1) part mem)
  rw [jsonDepth, max_depths_le_iff least, fieldDepths_eq, forall_mem_map]

mutual

theorem jsonDepth_canonicalJson : (value : Json) → (depth : Nat) →
    jsonDepth (canonicalJson value) depth ≤ jsonDepth value depth
  | .null, _ => Nat.le_refl _
  | .bool _, _ => Nat.le_refl _
  | .number _, _ => Nat.le_refl _
  | .string _, _ => Nat.le_refl _
  | .array values, depth => by
    have bounded := jsonDepth_array_le_iff.mp (Nat.le_refl (jsonDepth (.array values) depth))
    rw [canonicalJson]
    apply jsonDepth_array_le_iff.mpr
    constructor
    · exact bounded.1
    · exact itemDepths_canonical values (depth + 1) _ bounded.2
  | .object fields, depth => by
    have bounded := jsonDepth_object_le_iff.mp (Nat.le_refl (jsonDepth (.object fields) depth))
    rw [canonicalJson]
    apply jsonDepth_object_le_iff.mpr
    constructor
    · exact bounded.1
    · intro field mem
      exact fieldDepths_canonical fields (depth + 1) _ bounded.2 field
        (mem_of_mem_collectEntries mem)

theorem itemDepths_canonical : (values : List Json) → (depth bound : Nat) →
    (∀ value ∈ values, jsonDepth value depth ≤ bound) →
      ∀ value ∈ canonicalItems values, jsonDepth value depth ≤ bound
  | [], _, _, _, _, mem => by cases mem
  | first :: rest, depth, bound, bounded, value, mem => by
    rcases mem_cons.mp mem with rfl | inRest
    · exact (jsonDepth_canonicalJson first depth).trans (bounded first (.head _))
    · exact itemDepths_canonical rest depth bound (forall_mem_cons.mp bounded).2 value inRest

theorem fieldDepths_canonical : (fields : List (String × Json)) → (depth bound : Nat) →
    (∀ field ∈ fields, jsonDepth field.2 depth ≤ bound) →
      ∀ field ∈ canonicalFields fields, jsonDepth field.2 depth ≤ bound
  | [], _, _, _, _, mem => by cases mem
  | first :: rest, depth, bound, bounded, field, mem => by
    rcases mem_cons.mp mem with rfl | inRest
    · exact (jsonDepth_canonicalJson first.2 depth).trans (bounded first (.head _))
    · exact fieldDepths_canonical rest depth bound (forall_mem_cons.mp bounded).2 field inRest

end

theorem canonicalBytes_object (distinct : (fields.map Prod.fst).Nodup) :
    canonicalBytes (.object fields)
      = (fields.map fun field => Json.fieldBytes (field.1, canonicalJson field.2)).sum
        + (fields.length - 1) + 2 := by
  have perm := collectEntries_perm ((canonicalFields_keys fields).symm ▸ distinct)
  rw [canonicalBytes, canonicalJson, Json.object_bytes, (perm.map Json.fieldBytes).sum_eq,
    perm.length_eq, canonicalFields_eq, map_map, length_map]
  rfl

theorem canonicalBytes_array_le {kept all : List Json} (part : kept.Sublist all) :
    canonicalBytes (.array kept) ≤ canonicalBytes (.array all) := by
  rw [canonicalBytes, canonicalBytes, canonicalJson, canonicalJson, canonicalItems_eq,
    canonicalItems_eq]
  exact Json.array_bytes_le_of_sublist (part.map canonicalJson)

theorem get_canonicalJson (distinct : (fields.map Prod.fst).Nodup) (name : String) :
    (canonicalJson (.object fields)).get name = ((Json.object fields).get name).map canonicalJson := by
  have names : ((canonicalFields fields).map Prod.fst).Nodup :=
    (canonicalFields_keys fields).symm ▸ distinct
  show (collectEntries (canonicalFields fields)).lookup name = (fields.lookup name).map canonicalJson
  rw [lookup_collectEntries names, canonicalFields_eq]
  exact lookup_map_values fields (fun _ value => canonicalJson value) name

end PiRelay.AgentMcpTypes
