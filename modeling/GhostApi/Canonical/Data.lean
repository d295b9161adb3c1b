import GhostApi.Evidence.Stable

/-!
# JSON data with the sign of zero

What the canonical texts are made of. Two JSON values are the same up to the
order of object keys and the sign of zero when they are the same up to the
order of keys once the sign of zero is forgotten.
-/

namespace GhostApi.Canonical

open Js Evidence
open Policy (JsString)

inductive DataNumber
  | integer (z : Int)
  | negativeZero
  | fraction (text : String)
  | nonFinite
  deriving DecidableEq

inductive Data
  /-- Also any other value that is no JSON data. -/
  | undefined
  | null
  | bool (b : Bool)
  | number (n : DataNumber)
  | string (s : JsString)
  | array (items : List Data)
  | object (fields : List (JsString × Data))

def DataNumber.unsigned : DataNumber → JsNumber
  | .integer z => .integer z
  | .negativeZero => .integer 0
  | .fraction text => .fraction text
  | .nonFinite => .nonFinite

mutual
def Data.unsigned : Data → Value
  | .undefined => .undefined
  | .null => .null
  | .bool b => .bool b
  | .number n => .number n.unsigned
  | .string s => .string s
  | .array items => .array (unsignedItems items)
  | .object fields => .object (unsignedFields fields)

def unsignedItems : List Data → List Value
  | [] => []
  | item :: rest => item.unsigned :: unsignedItems rest

def unsignedFields : List (JsString × Data) → Members
  | [] => []
  | (key, value) :: rest => (key, value.unsigned) :: unsignedFields rest
end

/-- A JSON value: its numbers are finite and no object has a key twice. -/
inductive Data.IsJson : Data → Prop
  | null : IsJson .null
  | bool (b : Bool) : IsJson (.bool b)
  | integer (z : Int) : IsJson (.number (.integer z))
  | negativeZero : IsJson (.number .negativeZero)
  | fraction {text : String} (h : Json.isFraction text = true) : IsJson (.number (.fraction text))
  | string (s : JsString) : IsJson (.string s)
  | array {items : List Data} (h : ∀ item ∈ items, IsJson item) : IsJson (.array items)
  | object {fields : List (JsString × Data)} (distinct : (fields.map Prod.fst).Nodup) (h : ∀ field ∈ fields, IsJson field.2) :
      IsJson (.object fields)

/-- Equal up to the order of object keys and the sign of zero. -/
def Data.SameUpToKeyOrder (data other : Data) : Prop := Same data.unsigned other.unsigned

@[elab_as_elim]
theorem Data.induction {motive : Data → Prop} (undefined : motive .undefined) (null : motive .null)
    (bool : ∀ b, motive (.bool b)) (number : ∀ n, motive (.number n)) (string : ∀ s, motive (.string s))
    (array : ∀ items, (∀ item ∈ items, motive item) → motive (.array items))
    (object : ∀ fields, (∀ field ∈ fields, motive field.2) → motive (.object fields)) (data : Data) : motive data := by
  induction hSize : sizeOf data using Nat.strongRecOn generalizing data with
  | ind n ih =>
    cases data with
    | undefined => exact undefined
    | null => exact null
    | bool b => exact bool b
    | number n => exact number n
    | string s => exact string s
    | array items =>
      refine array items fun item hItem => ih (sizeOf item) ?_ item rfl
      have hLt := List.sizeOf_lt_of_mem hItem
      rw [← hSize, Data.array.sizeOf_spec]
      omega
    | object fields =>
      refine object fields fun field hField => ih (sizeOf field.2) ?_ field.2 rfl
      have hLt := List.sizeOf_lt_of_mem hField
      obtain ⟨key, member⟩ := field
      rw [Prod.mk.sizeOf_spec] at hLt
      rw [← hSize, Data.object.sizeOf_spec]
      simp only
      omega

theorem unsignedItems_eq (items : List Data) : unsignedItems items = items.map Data.unsigned := by
  induction items with
  | nil => rw [unsignedItems, List.map_nil]
  | cons item rest ih => rw [unsignedItems, List.map_cons, ih]

theorem unsignedFields_eq (fields : List (JsString × Data)) :
    unsignedFields fields = fields.map fun field => (field.1, field.2.unsigned) := by
  induction fields with
  | nil => rw [unsignedFields, List.map_nil]
  | cons field rest ih => rw [unsignedFields, List.map_cons, ih]

theorem Data.IsJson.parsed {data : Data} (h : data.IsJson) : data.unsigned.Parsed := by
  induction data using Data.induction with
  | undefined => cases h
  | null => exact .null
  | bool b => exact .bool b
  | string s => exact .string s
  | number n =>
    cases h with
    | integer z => exact .integer z
    | negativeZero => exact .integer 0
    | fraction hText => exact .fraction hText
  | array items ih =>
    cases h with
    | array hItems =>
      rw [Data.unsigned, unsignedItems_eq]
      exact .array (List.forall_mem_map.mpr fun item hItem => ih item hItem (hItems item hItem))
  | object fields ih =>
    cases h with
    | object distinct hFields =>
      rw [Data.unsigned, unsignedFields_eq]
      refine .object ?_ (List.forall_mem_map.mpr fun field hField => ih field hField (hFields field hField))
      rw [List.map_map]
      exact distinct

theorem not_hasInfinity (data : Data) (negative : Bool) (place : List Step) : ¬HasInfinity negative place data.unsigned := by
  induction place generalizing data with
  | nil =>
    intro h
    cases data with
    | undefined | null | bool | number | string | array | object =>
      rw [Data.unsigned] at h
      cases h
  | cons step place ih =>
    cases step with
    | index i =>
      rintro ⟨items, item, hArray, hItem, hPlace⟩
      cases data with
      | array others =>
        rw [Data.unsigned, unsignedItems_eq] at hArray
        cases hArray
        rw [List.getElem?_map, Option.map_eq_some_iff] at hItem
        obtain ⟨other, _, rfl⟩ := hItem
        exact ih other hPlace
      | undefined | null | bool | number | string | object =>
        rw [Data.unsigned] at hArray
        cases hArray
    | key name =>
      rintro ⟨fields, member, hObject, hMember, hPlace⟩
      cases data with
      | object others =>
        rw [Data.unsigned, unsignedFields_eq] at hObject
        cases hObject
        obtain ⟨other, _, hSame⟩ := List.mem_map.mp hMember
        rw [← (Prod.mk.inj hSame).2] at hPlace
        exact ih other.2 hPlace
      | undefined | null | bool | number | string | array =>
        rw [Data.unsigned] at hObject
        cases hObject

end GhostApi.Canonical
