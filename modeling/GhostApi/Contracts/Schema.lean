import GhostApi.Js.Objects

/-!
# Contract schemas and the values they accept

A schema of the supported subset restricts the type of a value, lists scalars
it may be, and describes the members of an object or the elements of an array.
The two readings of a schema differ in one point: in the closed world an
object has declared properties only.
-/

namespace GhostApi.Contracts

open Js

inductive SchemaType
  | string
  | number
  | integer
  | boolean
  | array
  | object
  | null
  deriving DecidableEq

def SchemaType.text : SchemaType → String
  | .string => "string"
  | .number => "number"
  | .integer => "integer"
  | .boolean => "boolean"
  | .array => "array"
  | .object => "object"
  | .null => "null"

def schemaTypes : List SchemaType := [.string, .number, .integer, .boolean, .array, .object, .null]

inductive Scalar
  | null
  | bool (b : Bool)
  | number (n : JsNumber)
  | string (s : String)
  deriving DecidableEq

def numberText : JsNumber → String
  | .integer z => toString z
  | .fraction text => text
  | .nonFinite => "null"

/-- stableStringify on a scalar, which is JSON.stringify. -/
def Scalar.stableStringify : Scalar → String
  | .null => "null"
  | .bool b => if b then "true" else "false"
  | .number n => numberText n
  | .string s => Json.quote s

def Scalar.toValue : Scalar → JsValue
  | .null => .null
  | .bool b => .bool b
  | .number n => .number n
  | .string s => .string s

def Scalar.ofValue : JsValue → Option Scalar
  | .null => some .null
  | .bool b => some (.bool b)
  | .number n => some (.number n)
  | .string s => some (.string s)
  | _ => none

theorem Scalar.ofValue_toValue (scalar : Scalar) : Scalar.ofValue scalar.toValue = some scalar := by
  cases scalar <;> rfl

structure ContractSchema where
  type : Option SchemaType := none
  enum : Option (List Scalar) := none
  required : Option (List String) := none
  properties : Option (List (String × ContractSchema)) := none
  items : Option ContractSchema := none

namespace ContractSchema

/-- A property that a schema has when its properties and its items have it. -/
def Hereditary (P : ContractSchema → Prop) : Prop := ∀ schema : ContractSchema,
  (∀ properties, schema.properties = some properties → ∀ member ∈ properties, P member.2) →
  (∀ items, schema.items = some items → P items) → P schema

mutual
theorem induct {P : ContractSchema → Prop} (step : Hereditary P) : ∀ schema, P schema
  | ⟨_, _, _, none, none⟩ => step _ (fun _ h => nomatch h) (fun _ h => nomatch h)
  | ⟨_, _, _, none, some items⟩ =>
    step _ (fun _ h => nomatch h) fun _ h => Option.some.inj h ▸ induct step items
  | ⟨_, _, _, some properties, none⟩ =>
    step _ (fun _ h => Option.some.inj h ▸ inductMembers step properties) fun _ h => nomatch h
  | ⟨_, _, _, some properties, some items⟩ =>
    step _ (fun _ h => Option.some.inj h ▸ inductMembers step properties)
      fun _ h => Option.some.inj h ▸ induct step items

theorem inductMembers {P : ContractSchema → Prop} (step : Hereditary P) :
    ∀ members : List (String × ContractSchema), ∀ member ∈ members, P member.2
  | [], _, h => nomatch h
  | (_, schema) :: rest, member, h => by
    rcases List.mem_cons.mp h with rfl | h
    · exact induct step schema
    · exact inductMembers step rest member h
end

def declared (schema : ContractSchema) : List (String × ContractSchema) := schema.properties.getD []

def requiredNames (schema : ContractSchema) : List String := schema.required.getD []

end ContractSchema

def SchemaType.admits : SchemaType → JsValue → Bool
  | .string, .string _ => true
  | .number, .number _ => true
  | .integer, .number (.integer _) => true
  | .boolean, .bool _ => true
  | .array, .array _ => true
  | .object, .object _ => true
  | .null, .null => true
  | _, _ => false

/-- A scalar with the JSON text of a listed one. -/
def allows (entries : List Scalar) (value : JsValue) : Bool := match Scalar.ofValue value with
  | some scalar => entries.any fun entry => entry.stableStringify == scalar.stableStringify
  | none => false

namespace ContractSchema

mutual
def accepts (closed : Bool) : ContractSchema → JsValue → Bool
  | ⟨type, enum, required, properties, items⟩, value =>
    type.all (·.admits value) && enum.all (allows · value) &&
      match value with
      | .object fields => ((required.getD []).all fun name => (keys (fromEntries fields)).contains name) &&
          (!closed || (keys (fromEntries fields)).all fun name => (keys (properties.getD [])).contains name) &&
          match properties with
          | some members => acceptsMembers closed members (fromEntries fields)
          | none => true
      | .array elements => match items with
          | some schema => elements.all (accepts closed schema)
          | none => true
      | _ => true

def acceptsMembers (closed : Bool) : List (String × ContractSchema) → List (String × JsValue) → Bool
  | [], _ => true
  | (name, schema) :: rest, fields =>
    (match fields.lookup name with
      | some value => accepts closed schema value
      | none => true) && acceptsMembers closed rest fields
end

structure Accepts (closed : Bool) (schema : ContractSchema) (value : JsValue) : Prop where
  type : ∀ type, schema.type = some type → type.admits value = true
  enum : ∀ entries, schema.enum = some entries → allows entries value = true
  required : ∀ fields, value = .object fields → ∀ name ∈ schema.requiredNames, name ∈ keys (fromEntries fields)
  known : closed = true → ∀ fields, value = .object fields → ∀ name ∈ keys (fromEntries fields), name ∈ keys schema.declared
  members : ∀ fields, value = .object fields → ∀ name member, (name, member) ∈ schema.declared →
    ∀ entry, (fromEntries fields).lookup name = some entry → member.accepts closed entry = true
  items : ∀ elements, value = .array elements → ∀ items, schema.items = some items →
    ∀ entry ∈ elements, items.accepts closed entry = true

theorem acceptsMembers_iff {closed : Bool} {members : List (String × ContractSchema)}
    {fields : List (String × JsValue)} : acceptsMembers closed members fields = true ↔
      ∀ name member, (name, member) ∈ members →
        ∀ entry, fields.lookup name = some entry → member.accepts closed entry = true := by
  induction members with
  | nil => simp [acceptsMembers]
  | cons head rest ih =>
    obtain ⟨key, schema⟩ := head
    rw [acceptsMembers, Bool.and_eq_true, ih]
    constructor
    · rintro ⟨hHead, hRest⟩ name member hMem entry hLookup
      rcases List.mem_cons.mp hMem with h | hMem
      · cases h
        rwa [hLookup] at hHead
      · exact hRest name member hMem entry hLookup
    · intro h
      constructor
      · split
        · exact h key schema List.mem_cons_self _ ‹_›
        · rfl
      · exact fun name member hMem => h name member (List.mem_cons_of_mem _ hMem)

theorem accepts_iff {closed : Bool} {schema : ContractSchema} {value : JsValue} :
    schema.accepts closed value = true ↔ Accepts closed schema value := by
  obtain ⟨type, enum, required, properties, items⟩ := schema
  unfold accepts
  rw [Bool.and_eq_true, Bool.and_eq_true, Option.all_eq_true, Option.all_eq_true]
  constructor
  · rintro ⟨⟨hType, hEnum⟩, hValue⟩
    refine ⟨hType, hEnum, ?_, ?_, ?_, ?_⟩
    · rintro fields rfl
      simp only [Bool.and_eq_true, List.all_eq_true, List.contains_iff_mem] at hValue
      exact hValue.1.1
    · rintro rfl fields rfl
      simp only [Bool.and_eq_true, List.all_eq_true, List.contains_iff_mem, Bool.not_true, Bool.false_or] at hValue
      exact hValue.1.2
    · rintro fields rfl
      cases properties with
      | none => simp [declared]
      | some members =>
        rw [Bool.and_eq_true] at hValue
        exact acceptsMembers_iff.mp hValue.2
    · rintro elements rfl schema rfl
      exact List.all_eq_true.mp hValue
  · intro h
    refine ⟨⟨h.type, h.enum⟩, ?_⟩
    split
    · rename_i fields
      simp only [Bool.and_eq_true, List.all_eq_true, List.contains_iff_mem]
      refine ⟨⟨h.required fields rfl, ?_⟩, ?_⟩
      · cases closed with
        | false => rfl
        | true =>
          simp only [Bool.not_true, Bool.false_or, List.all_eq_true, List.contains_iff_mem]
          exact h.known rfl fields rfl
      · split
        · exact acceptsMembers_iff.mpr (h.members fields rfl)
        · rfl
    · rename_i elements
      split
      · exact List.all_eq_true.mpr (h.items elements rfl _ rfl)
      · rfl
    · rfl

end ContractSchema

end GhostApi.Contracts
