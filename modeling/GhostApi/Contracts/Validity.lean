import GhostApi.Contracts.Validation

/-!
# What the validator lets through

A schema passes if it and all the schemas in it have the right shape and it is
not nested too deeply; the validator then returns it with its names sorted. The
contracts that it returns pass again and come back unchanged.
-/

namespace GhostApi.Contracts

open Js Validation Effect

/-! ## The shape of a schema -/

namespace ContractSchema

/-- The conditions on a schema that do not concern the schemas inside. -/
structure Shape (schema : ContractSchema) : Prop where
  constrained : ¬(schema.type = none ∧ schema.enum = none)
  enum : ∀ entries, schema.enum = some entries → entries ≠ [] ∧ entries.length ≤ 100
  required : ∀ names, schema.required = some names →
    schema.type = some .object ∧ names.Nodup ∧ ∀ name ∈ names, isFieldName name = true
  properties : ∀ members, schema.properties = some members →
    schema.type = some .object ∧ members.length ≤ MAX_PROPERTIES ∧ ∀ name ∈ keys members, isFieldName name = true
  items : schema.items ≠ none → schema.type = some .array

def Acceptable : Nat → ContractSchema → Prop
  | 0, _ => False
  | room + 1, schema => schema.Shape ∧
      (∀ members, schema.properties = some members → ∀ member ∈ members, Acceptable room member.2) ∧
      ∀ items, schema.items = some items → Acceptable room items

inductive Proper : ContractSchema → Prop
  | intro (schema : ContractSchema)
      (nodup : ∀ members, schema.properties = some members → (keys members).Nodup)
      (members : ∀ members, schema.properties = some members → ∀ member ∈ members, Proper member.2)
      (items : ∀ items, schema.items = some items → Proper items) : Proper schema

section Sorted

variable (collation : Collation)

mutual
def sorted : ContractSchema → ContractSchema
  | ⟨type, enum, required, properties, items⟩ => ⟨type, enum, required.map sortNames,
      (match properties with
        | some members => some (collation.sortEntries (sortedMembers members))
        | none => none),
      match items with
        | some schema => some schema.sorted
        | none => none⟩

def sortedMembers : List (String × ContractSchema) → List (String × ContractSchema)
  | [] => []
  | (key, schema) :: rest => (key, schema.sorted) :: sortedMembers rest
end

theorem sortedMembers_eq (members : List (String × ContractSchema)) :
    sortedMembers collation members = members.map fun member => (member.1, member.2.sorted collation) := by
  induction members with
  | nil => rfl
  | cons member members ih => rw [sortedMembers, ih, List.map_cons]

theorem sorted_eq (schema : ContractSchema) : schema.sorted collation =
    ⟨schema.type, schema.enum, schema.required.map sortNames,
      schema.properties.map fun members =>
        collation.sortEntries (members.map fun member => (member.1, member.2.sorted collation)),
      schema.items.map (·.sorted collation)⟩ := by
  obtain ⟨type, enum, required, properties, items⟩ := schema
  rw [sorted.eq_def]
  cases properties <;> cases items <;> simp only [sortedMembers_eq, Option.map_none, Option.map_some]

theorem mem_requiredNames_sorted {schema : ContractSchema} {name : String} :
    name ∈ (schema.sorted collation).requiredNames ↔ name ∈ schema.requiredNames := by
  rw [sorted_eq]
  rcases hRequired : schema.required with _ | names
  · simp [requiredNames, hRequired]
  · simp [requiredNames, hRequired, (sortNames_perm names).mem_iff]

theorem mem_declared_sorted {schema : ContractSchema} {entry : String × ContractSchema} :
    entry ∈ (schema.sorted collation).declared ↔
      ∃ member ∈ schema.declared, entry = (member.1, member.2.sorted collation) := by
  rw [sorted_eq]
  rcases hProperties : schema.properties with _ | members
  · simp [declared, hProperties]
  · simp only [declared, hProperties, Option.map_some, Option.getD_some, (collation.sortEntries_perm _).mem_iff,
      List.mem_map]
    constructor
    · rintro ⟨member, hMem, hEntry⟩
      exact ⟨member, hMem, hEntry.symm⟩
    · rintro ⟨member, hMem, hEntry⟩
      exact ⟨member, hMem, hEntry.symm⟩

theorem accepts_sorted (closed : Bool) (schema : ContractSchema) (value : JsValue) :
    (schema.sorted collation).accepts closed value = schema.accepts closed value := by
  revert value
  refine induct (P := fun schema => ∀ value, (schema.sorted collation).accepts closed value =
    schema.accepts closed value) ?_ schema
  intro schema hMembers hItems value
  have hDeclared : ∀ name, name ∈ keys (schema.sorted collation).declared ↔ name ∈ keys schema.declared := by
    intro name
    simp only [keys, List.mem_map, mem_declared_sorted]
    constructor
    · rintro ⟨_, ⟨member, hMem, rfl⟩, rfl⟩
      exact ⟨member, hMem, rfl⟩
    · rintro ⟨member, hMem, rfl⟩
      exact ⟨_, ⟨member, hMem, rfl⟩, rfl⟩
  have hMember : ∀ member ∈ schema.declared, ∀ entry,
      (member.2.sorted collation).accepts closed entry = member.2.accepts closed entry := by
    intro member hMem
    rw [declared] at hMem
    rcases hProperties : schema.properties with _ | members
    · rw [hProperties] at hMem
      cases hMem
    · rw [hProperties] at hMem
      exact hMembers members hProperties member hMem
  rw [Bool.eq_iff_iff, accepts_iff, accepts_iff]
  constructor
  · intro h
    refine ⟨?_, ?_, ?_, ?_, ?_, ?_⟩
    · exact fun type hType => h.type type (by rw [sorted_eq, hType])
    · exact fun entries hEnum => h.enum entries (by rw [sorted_eq, hEnum])
    · exact fun fields hObject name hName =>
        h.required fields hObject name ((mem_requiredNames_sorted collation).mpr hName)
    · exact fun hClosed fields hObject name hName =>
        (hDeclared name).mp (h.known hClosed fields hObject name hName)
    · intro fields hObject name member hMem entry hEntry
      rw [← hMember _ hMem]
      exact h.members fields hObject name _ ((mem_declared_sorted collation).mpr ⟨_, hMem, rfl⟩) entry hEntry
    · intro elements hArray items hSome entry hEntry
      rw [← hItems items hSome]
      exact h.items elements hArray _ (by rw [sorted_eq, hSome, Option.map_some]) entry hEntry
  · intro h
    refine ⟨?_, ?_, ?_, ?_, ?_, ?_⟩
    · exact fun type hType => h.type type (by rw [sorted_eq] at hType; exact hType)
    · exact fun entries hEnum => h.enum entries (by rw [sorted_eq] at hEnum; exact hEnum)
    · exact fun fields hObject name hName =>
        h.required fields hObject name ((mem_requiredNames_sorted collation).mp hName)
    · exact fun hClosed fields hObject name hName =>
        (hDeclared name).mpr (h.known hClosed fields hObject name hName)
    · intro fields hObject name sortedMember hMem entry hEntry
      obtain ⟨member, hOwn, hPair⟩ := (mem_declared_sorted collation).mp hMem
      cases hPair
      rw [hMember member hOwn]
      exact h.members fields hObject member.1 member.2 hOwn entry hEntry
    · intro elements hArray sortedItems hSome entry hEntry
      rw [sorted_eq] at hSome
      obtain ⟨items, hOwn, rfl⟩ := Option.map_eq_some_iff.mp hSome
      rw [hItems items hOwn]
      exact h.items elements hArray items hOwn entry hEntry

end Sorted

theorem membersToValue_eq (members : List (String × ContractSchema)) :
    membersToValue members = members.map fun member => (member.1, member.2.toValue) := by
  induction members with
  | nil => rfl
  | cons member members ih => rw [membersToValue, ih, List.map_cons]

theorem toValue_eq (schema : ContractSchema) : schema.toValue = .object (fields (schema.type.map (.string ·.text))
    (schema.enum.map fun entries => .array (entries.map Scalar.toValue))
    (schema.required.map fun names => .array (names.map .string))
    (schema.properties.map fun members => .object (members.map fun member => (member.1, member.2.toValue)))
    (schema.items.map (·.toValue))) := by
  obtain ⟨type, enum, required, properties, items⟩ := schema
  rw [toValue.eq_def]
  cases properties <;> cases items <;> simp only [membersToValue_eq, Option.map_none, Option.map_some]

theorem toValue_ne_undefined (schema : ContractSchema) : schema.toValue ≠ .undefined := by
  rw [toValue_eq]
  rintro ⟨⟩

section Fields

variable {type enum required properties items : Option JsValue}

theorem fields_type : (fields type enum required properties items).get "type" = type.getD .undefined := by
  cases type <;> cases enum <;> cases required <;> cases properties <;> cases items <;> rfl

theorem fields_enum : (fields type enum required properties items).get "enum" = enum.getD .undefined := by
  cases type <;> cases enum <;> cases required <;> cases properties <;> cases items <;> rfl

theorem fields_required : (fields type enum required properties items).get "required" = required.getD .undefined := by
  cases type <;> cases enum <;> cases required <;> cases properties <;> cases items <;> rfl

theorem fields_properties :
    (fields type enum required properties items).get "properties" = properties.getD .undefined := by
  cases type <;> cases enum <;> cases required <;> cases properties <;> cases items <;> rfl

theorem fields_items : (fields type enum required properties items).get "items" = items.getD .undefined := by
  cases type <;> cases enum <;> cases required <;> cases properties <;> cases items <;> rfl

theorem fields_keys (label : String) : assertExactKeys (fields type enum required properties items)
    ["type", "enum", "required", "properties", "items"] label = .ok () := by
  cases type <;> cases enum <;> cases required <;> cases properties <;> cases items <;> rfl

end Fields

end ContractSchema

/-! ## The members of a schema, read back -/

section Members

variable (label : String)

theorem validateType_eq_ok {type type' : Option SchemaType} :
    validateType ((type.map (JsValue.string ·.text)).getD .undefined) label = .ok type' ↔ type' = type := by
  rcases type with _ | type
  · simp [validateType, eq_comm]
  · cases type <;> simp [validateType, schemaTypes, SchemaType.text, eq_comm]

theorem mapM_ofValue (entries : List Scalar) : (entries.map Scalar.toValue).mapM Scalar.ofValue = some entries := by
  have h : entries.mapM (Scalar.ofValue ∘ Scalar.toValue) = pure (entries.map id) :=
    mapM_eq_pure fun scalar _ => scalar.ofValue_toValue
  rw [List.mapM_map]
  exact h.trans (by simp)

theorem validateEnum_eq_ok {enum enum' : Option (List Scalar)} :
    validateEnum ((enum.map fun entries => JsValue.array (entries.map Scalar.toValue)).getD .undefined) label =
      .ok enum' ↔ (∀ entries, enum = some entries → entries ≠ [] ∧ entries.length ≤ 100) ∧ enum' = enum := by
  rcases enum with _ | entries
  · simp [validateEnum, eq_comm]
  · simp only [Option.map_some, Option.getD_some, validateEnum, mapM_ofValue, List.map_eq_nil_iff, List.length_map]
    constructor
    · intro h
      obtain ⟨hBounds, h⟩ := ite_error_eq_ok h
      cases h
      refine ⟨?_, rfl⟩
      rintro _ ⟨⟩
      exact ⟨fun hNil => hBounds (.inl hNil), Nat.le_of_not_lt fun hLt => hBounds (.inr hLt)⟩
    · rintro ⟨hBounds, rfl⟩
      obtain ⟨hNe, hLength⟩ := hBounds entries rfl
      rw [if_neg (not_or.mpr ⟨hNe, Nat.not_lt.mpr hLength⟩)]

theorem fieldNameOf_string (name : String) :
    fieldNameOf (.string name) = if isFieldName name = true then some name else none := rfl

theorem mapM_fieldNameOf (names : List String) : (names.map JsValue.string).mapM fieldNameOf =
    if ∀ name ∈ names, isFieldName name = true then some names else none := by
  rw [List.mapM_map]
  induction names with
  | nil => rfl
  | cons name names ih =>
    rw [List.mapM_cons, ih, Function.comp_apply, fieldNameOf_string]
    simp only [List.forall_mem_cons]
    by_cases hHead : isFieldName name = true
    · by_cases hTail : ∀ name ∈ names, isFieldName name = true
      · rw [if_pos hHead, if_pos hTail, if_pos ⟨hHead, hTail⟩]
        rfl
      · rw [if_pos hHead, if_neg hTail, if_neg fun h => hTail h.2]
        rfl
    · have hNot : ¬(isFieldName name = true ∧ ∀ name ∈ names, isFieldName name = true) := fun h => hHead h.1
      rw [if_neg hHead, if_neg hNot]
      rfl

theorem validateRequired_eq_ok {required required' : Option (List String)} :
    validateRequired ((required.map fun names => JsValue.array (names.map JsValue.string)).getD .undefined) label =
      .ok required' ↔ (∀ names, required = some names → names.Nodup ∧ ∀ name ∈ names, isFieldName name = true) ∧
        required' = required.map sortNames := by
  rcases required with _ | names
  · constructor
    · rintro ⟨⟩
      exact ⟨(fun _ h => nomatch h), rfl⟩
    · rintro ⟨_, rfl⟩
      rfl
  · simp only [Option.map_some, Option.getD_some, validateRequired, mapM_fieldNameOf]
    constructor
    · intro h
      split at h
      · rename_i found hFound
        obtain ⟨hNames, hFound⟩ := Option.ite_none_right_eq_some.mp hFound
        cases hFound
        split at h
        · cases h
          refine ⟨?_, rfl⟩
          rintro _ ⟨⟩
          exact ⟨‹_›, hNames⟩
        · cases h
      · cases h
    · rintro ⟨hNames, rfl⟩
      obtain ⟨hNodup, hNames⟩ := hNames names rfl
      rw [if_pos hNames]
      exact if_pos hNodup

end Members

theorem sortEntries_map {α β : Type} {collation : Collation} (f : α → β) (entries : List (String × α)) :
    collation.sortEntries (entries.map fun entry => (entry.1, f entry.2)) =
      (collation.sortEntries entries).map fun entry => (entry.1, f entry.2) := by
  symm
  exact List.map_mergeSort fun _ _ _ _ => rfl

section Schemas

open ContractSchema

variable {collation : Collation} {label : String}

/-- What a validator of nested schemas makes of a schema that lies room levels above the limit. -/
def Reads (collation : Collation) (validate : JsValue → String → Except JsError ContractSchema) (room : Nat)
    (schema : ContractSchema) : Prop :=
  ∀ label result, validate schema.toValue label = .ok result ↔
    schema.Acceptable room ∧ result = schema.sorted collation

variable {validate : JsValue → String → Except JsError ContractSchema} {room : Nat} {type : Option SchemaType}

theorem validateMember_eq_ok {member : String × ContractSchema} (h : Reads collation validate room member.2)
    {entry : String × ContractSchema} : validateMember validate label (member.1, member.2.toValue) = .ok entry ↔
      member.2.Acceptable room ∧ entry = (member.1, member.2.sorted collation) := by
  rw [validateMember, bind_eq_ok_iff]
  constructor
  · rintro ⟨schema, hRead, hPure⟩
    obtain ⟨hAcceptable, rfl⟩ := (h _ _).mp hRead
    cases hPure
    exact ⟨hAcceptable, rfl⟩
  · rintro ⟨hAcceptable, rfl⟩
    exact ⟨_, (h _ _).mpr ⟨hAcceptable, rfl⟩, rfl⟩

theorem validateMembers_eq_ok (label : String) {members : List (String × ContractSchema)}
    (h : ∀ member ∈ members, Reads collation validate room member.2) (entries : List (String × ContractSchema)) :
    (collation.sortEntries (members.map fun member => (member.1, member.2.toValue))).mapM
        (validateMember validate label) = .ok entries ↔ (∀ member ∈ members, member.2.Acceptable room) ∧
      entries = collation.sortEntries (members.map fun member => (member.1, member.2.sorted collation)) := by
  have hPerm := collation.sortEntries_perm members
  have hAll : ∀ member ∈ collation.sortEntries members, ∀ entry,
      (validateMember validate label ∘ fun member : String × ContractSchema => (member.1, member.2.toValue)) member =
        .ok entry ↔ member.2.Acceptable room ∧ entry = (member.1, member.2.sorted collation) :=
    fun member hMem _ => validateMember_eq_ok (h member (hPerm.mem_iff.mp hMem))
  rw [sortEntries_map, sortEntries_map, List.mapM_map, mapM_eq_ok_iff hAll]
  simp only [hPerm.mem_iff]

theorem validateProperties_eq_ok (label : String) (type : Option SchemaType)
    {properties properties' : Option (List (String × ContractSchema))}
    (hMembers : ∀ members, properties = some members → ∀ member ∈ members, Reads collation validate room member.2)
    (hNodup : ∀ members, properties = some members → (keys members).Nodup) :
    validateProperties collation validate type ((properties.map fun members =>
        JsValue.object (members.map fun member => (member.1, member.2.toValue))).getD .undefined) label =
      .ok properties' ↔ (∀ members, properties = some members → type = some .object ∧
        members.length ≤ MAX_PROPERTIES ∧ (∀ name ∈ keys members, isFieldName name = true) ∧
        ∀ member ∈ members, member.2.Acceptable room) ∧
      properties' = properties.map fun members =>
        collation.sortEntries (members.map fun member => (member.1, member.2.sorted collation)) := by
  rcases properties with _ | members
  · constructor
    · rintro ⟨⟩
      exact ⟨(fun _ h => nomatch h), rfl⟩
    · rintro ⟨_, rfl⟩
      rfl
  · have hKeys : (keys (collation.sortEntries (members.map fun member =>
        (member.1, member.2.sorted collation)))).Nodup := by
      refine ((collation.sortEntries_perm _).map Prod.fst).nodup_iff.mpr ?_
      rw [← keys, keys_map]
      exact hNodup members rfl
    have hNames : (∀ entry ∈ members.map fun member => (member.1, member.2.toValue), isFieldName entry.1 = true) ↔
        ∀ name ∈ keys members, isFieldName name = true := by
      rw [← keys_map (fun schema : ContractSchema => schema.toValue)]
      simp only [keys, List.mem_map]
      exact ⟨by rintro h _ ⟨entry, hMem, rfl⟩; exact h entry hMem, fun h entry hMem => h _ ⟨entry, hMem, rfl⟩⟩
    have hEntries := validateMembers_eq_ok label (hMembers members rfl)
    simp only [Option.map_some, Option.getD_some, validateProperties]
    constructor
    · intro h
      obtain ⟨_, hType, h⟩ := bind_eq_ok h
      obtain ⟨_, hObject, h⟩ := bind_eq_ok h
      cases hObject
      obtain ⟨_, hBounds, h⟩ := bind_eq_ok h
      obtain ⟨entries, hRun, h⟩ := bind_eq_ok h
      obtain ⟨hAcceptable, rfl⟩ := (hEntries _).mp hRun
      cases h
      rw [fromEntries_eq_self hKeys]
      rw [failIf_eq_ok, not_not] at hType
      rw [failIf_eq_ok, not_or, not_not, hNames, List.length_map, Nat.not_lt] at hBounds
      refine ⟨?_, rfl⟩
      rintro _ ⟨⟩
      exact ⟨hType, hBounds.1, hBounds.2, hAcceptable⟩
    · rintro ⟨h, rfl⟩
      obtain ⟨hType, hLength, hFields, hAcceptable⟩ := h members rfl
      have hBounds : ¬(MAX_PROPERTIES < (members.map fun member => (member.1, member.2.toValue)).length ∨
          ¬∀ entry ∈ members.map fun member => (member.1, member.2.toValue), isFieldName entry.1 = true) := by
        rw [not_or, not_not, hNames, List.length_map, Nat.not_lt]
        exact ⟨hLength, hFields⟩
      rw [failIf_of_not (not_not.mpr hType), ok_bind]
      change ((failIf _ _ : Except JsError Unit) >>= _) = _
      rw [failIf_of_not hBounds, ok_bind, (hEntries _).mpr ⟨hAcceptable, rfl⟩, ok_bind, fromEntries_eq_self hKeys]
      rfl

theorem validateItems_of_ne {value : JsValue} (h : value ≠ .undefined) : validateItems validate type value label = do
    failIf (type ≠ some .array) (contractError (label ++ " items requires type array."))
    return some (← validate value (label ++ " items")) := by
  rw [validateItems]
  exact h

theorem validateItems_eq_ok (label : String) (type : Option SchemaType) {items items' : Option ContractSchema}
    (h : ∀ schema, items = some schema → Reads collation validate room schema) :
    validateItems validate type ((items.map (·.toValue)).getD .undefined) label = .ok items' ↔
      (∀ schema, items = some schema → type = some .array ∧ schema.Acceptable room) ∧
        items' = items.map (·.sorted collation) := by
  rcases items with _ | schema
  · constructor
    · rintro ⟨⟩
      exact ⟨(fun _ h => nomatch h), rfl⟩
    · rintro ⟨_, rfl⟩
      rfl
  · rw [Option.map_some, Option.getD_some, validateItems_of_ne schema.toValue_ne_undefined]
    constructor
    · intro hRun
      obtain ⟨_, hType, hRun⟩ := bind_eq_ok hRun
      obtain ⟨result, hRead, hPure⟩ := bind_eq_ok hRun
      obtain ⟨hAcceptable, rfl⟩ := (h schema rfl _ _).mp hRead
      cases hPure
      rw [failIf_eq_ok, not_not] at hType
      refine ⟨?_, rfl⟩
      rintro _ ⟨⟩
      exact ⟨hType, hAcceptable⟩
    · rintro ⟨hItems, rfl⟩
      obtain ⟨hType, hAcceptable⟩ := hItems schema rfl
      rw [failIf_of_not (not_not.mpr hType), ok_bind, (h schema rfl _ _).mpr ⟨hAcceptable, rfl⟩]
      rfl

theorem validateSchema_reads {room : Nat} {schema : ContractSchema} (hProper : schema.Proper) :
    Reads collation (validateSchema collation room) room schema := by
  induction room generalizing schema with
  | zero =>
    intro label result
    constructor
    · rintro ⟨⟩
    · rintro ⟨⟨⟩, _⟩
  | succ room ih =>
    obtain ⟨_, hNodup, hMembers, hItems⟩ := hProper
    intro label result
    have hPropertiesRead : ∀ members, schema.properties = some members → ∀ member ∈ members,
        Reads collation (validateSchema collation room) room member.2 :=
      fun members hSome member hMem => ih (hMembers members hSome member hMem)
    have hItemsRead : ∀ items, schema.items = some items → Reads collation (validateSchema collation room) room items :=
      fun items hSome => ih (hItems items hSome)
    rw [toValue_eq]
    constructor
    · intro h
      obtain ⟨_, hObject, h⟩ := bind_eq_ok h
      cases hObject
      obtain ⟨_, _, h⟩ := bind_eq_ok h
      obtain ⟨type, hType, h⟩ := bind_eq_ok h
      obtain ⟨enum, hEnum, h⟩ := bind_eq_ok h
      obtain ⟨required, hRequired, h⟩ := bind_eq_ok h
      obtain ⟨properties, hProperties, h⟩ := bind_eq_ok h
      obtain ⟨items, hItems, h⟩ := bind_eq_ok h
      obtain ⟨_, hConstrained, h⟩ := bind_eq_ok h
      obtain ⟨_, hObject, h⟩ := bind_eq_ok h
      rw [fields_type, validateType_eq_ok label] at hType
      rw [fields_enum, validateEnum_eq_ok] at hEnum
      rw [fields_required, validateRequired_eq_ok] at hRequired
      rw [fields_properties, validateProperties_eq_ok label _ hPropertiesRead hNodup] at hProperties
      rw [fields_items, validateItems_eq_ok label _ hItemsRead] at hItems
      obtain ⟨hEnum, rfl⟩ := hEnum
      obtain ⟨hRequired, rfl⟩ := hRequired
      obtain ⟨hProperties, rfl⟩ := hProperties
      obtain ⟨hItems, rfl⟩ := hItems
      subst hType
      cases h
      rw [failIf_eq_ok] at hConstrained hObject
      refine ⟨⟨⟨hConstrained, hEnum, ?_, ?_, ?_⟩, ?_, ?_⟩, (sorted_eq collation schema).symm⟩
      · intro names hNames
        refine ⟨?_, hRequired names hNames⟩
        by_contra hType
        exact hObject ⟨by simp [hNames], hType⟩
      · intro members hSome
        obtain ⟨hType, hLength, hFields, _⟩ := hProperties members hSome
        exact ⟨hType, hLength, hFields⟩
      · intro hSome
        obtain ⟨items, hSome⟩ := Option.ne_none_iff_exists'.mp hSome
        exact (hItems items hSome).1
      · exact fun members hSome => (hProperties members hSome).2.2.2
      · exact fun items hSome => (hItems items hSome).2
    · rintro ⟨⟨hShape, hAllProperties, hAllItems⟩, rfl⟩
      have hProperties := (validateProperties_eq_ok label schema.type hPropertiesRead hNodup).mpr
        ⟨fun members hSome => ⟨(hShape.properties members hSome).1, (hShape.properties members hSome).2.1,
          (hShape.properties members hSome).2.2, hAllProperties members hSome⟩, rfl⟩
      have hItems := (validateItems_eq_ok label schema.type hItemsRead).mpr
        ⟨fun items hSome => ⟨hShape.items (by simp [hSome]), hAllItems items hSome⟩, rfl⟩
      have hRequired := (validateRequired_eq_ok label).mpr
        ⟨fun names hSome => (hShape.required names hSome).2, rfl⟩
      have hObject : ¬(schema.required.map sortNames ≠ none ∧ schema.type ≠ some .object) := by
        rintro ⟨hSome, hType⟩
        obtain ⟨names, hNames⟩ := Option.ne_none_iff_exists'.mp (show schema.required ≠ none from
          fun h => hSome (by simp [h]))
        exact hType (hShape.required names hNames).1
      rw [validateSchema, objectAt, Validation.object, ok_bind, fields_keys, ok_bind, fields_type, fields_enum,
        fields_required, fields_properties, fields_items, (validateType_eq_ok label).mpr rfl, ok_bind,
        (validateEnum_eq_ok label).mpr ⟨hShape.enum, rfl⟩, ok_bind, hRequired, ok_bind, hProperties, ok_bind, hItems, ok_bind,
        failIf_of_not hShape.constrained, ok_bind, failIf_of_not hObject, sorted_eq]
      rfl

/-! ## What comes out of the validator -/

structure Validated (collation : Collation) (room : Nat) (schema : ContractSchema) : Prop where
  proper : schema.Proper
  acceptable : schema.Acceptable room
  sorted : schema.sorted collation = schema

theorem validateEnum_bounds {value : JsValue} {enum : Option (List Scalar)} (h : validateEnum value label = .ok enum) :
    ∀ entries, enum = some entries → entries ≠ [] ∧ entries.length ≤ 100 := by
  rintro scalars rfl
  rw [validateEnum.eq_def] at h
  split at h
  · cases h
  · rename_i entries
    obtain ⟨hBounds, h⟩ := ite_error_eq_ok h
    split at h
    · rename_i found hFound
      cases h
      have hLength := (mapM_eq_some hFound).length_eq
      refine ⟨?_, by omega⟩
      rintro rfl
      exact hBounds (.inl (List.length_eq_zero_iff.mp hLength))
    · cases h
  · cases h

theorem mem_fieldNames {values : List JsValue} {names : List String} (h : values.mapM fieldNameOf = some names) :
    ∀ name ∈ names, isFieldName name = true := by
  have hAll := mapM_eq_some h
  clear h
  induction hAll with
  | nil => exact fun _ h => nomatch h
  | @cons value name values names hHead _ ih =>
    rw [List.forall_mem_cons]
    refine ⟨?_, ih⟩
    rw [fieldNameOf.eq_def] at hHead
    split at hHead
    · obtain ⟨hName, hSome⟩ := Option.ite_none_right_eq_some.mp hHead
      cases hSome
      exact hName
    · cases hHead

theorem validateRequired_names {value : JsValue} {required : Option (List String)}
    (h : validateRequired value label = .ok required) : ∀ names, required = some names →
      names.Nodup ∧ (∀ name ∈ names, isFieldName name = true) ∧ sortNames names = names := by
  rintro names rfl
  rw [validateRequired.eq_def] at h
  split at h
  · cases h
  · split at h
    · rename_i found hFound
      split at h
      · rename_i hNodup
        cases h
        have hPerm := sortNames_perm found
        refine ⟨hPerm.nodup_iff.mpr hNodup, fun name hMem => ?_, sortNames_idempotent found⟩
        exact mem_fieldNames hFound name (hPerm.mem_iff.mp hMem)
      · cases h
    · cases h
  · cases h

theorem fromEntries_of_mapM {α β : Type} {check : String × α → Except JsError (String × β)}
    (hCheck : ∀ entry member, check entry = .ok member → member.1 = entry.1) {entries : List (String × α)}
    {members : List (String × β)} (h : (collation.sortEntries entries).mapM check = .ok members) :
    (fromEntries members).length ≤ entries.length ∧ (keys (fromEntries members)).Nodup ∧
      collation.sortEntries (fromEntries members) = fromEntries members ∧
      ∀ name, name ∈ keys (fromEntries members) ↔ name ∈ keys entries := by
  have hKeys : keys members = keys (collation.sortEntries entries) := map_of_mapM hCheck h
  have hPerm := collation.sortEntries_perm entries
  refine ⟨?_, fromEntries_nodup members, ?_, fun name => ?_⟩
  · calc (fromEntries members).length = (keys (fromEntries members)).length := (List.length_map _).symm
      _ ≤ (keys members).length := (keys_fromEntries_sublist members).length_le
      _ = (keys (collation.sortEntries entries)).length := by rw [hKeys]
      _ = entries.length := by rw [keys, List.length_map, hPerm.length_eq]
  · apply collation.sortEntries_eq_self
    apply collation.sorted_fromEntries
    rw [hKeys]
    exact collation.sorted_sortEntries entries
  · rw [mem_keys_fromEntries, hKeys]
    exact (hPerm.map Prod.fst).mem_iff

theorem validateMember_key {entry : String × JsValue} {member : String × ContractSchema}
    (h : validateMember validate label entry = .ok member) : member.1 = entry.1 := by
  obtain ⟨schema, _, hPure⟩ := bind_eq_ok h
  cases hPure
  rfl

theorem validateMember_schema {P : ContractSchema → Prop} {entry : String × JsValue} {member : String × ContractSchema}
    (hValidate : ∀ value label schema, validate value label = .ok schema → P schema)
    (h : validateMember validate label entry = .ok member) : P member.2 := by
  obtain ⟨schema, hSchema, hPure⟩ := bind_eq_ok h
  cases hPure
  exact hValidate _ _ _ hSchema

theorem validateProperties_of_ne {value : JsValue} (h : value ≠ .undefined) :
    validateProperties collation validate type value label = do
      failIf (type ≠ some .object) (contractError (label ++ " properties requires type object."))
      let entries ← objectAt value (label ++ " properties are invalid.")
      failIf (MAX_PROPERTIES < entries.length ∨ ¬∀ entry ∈ entries, isFieldName entry.1 = true)
        (contractError (label ++ " properties are invalid."))
      let members ← (collation.sortEntries entries).mapM (validateMember validate label)
      return some (fromEntries members) := by
  rw [validateProperties]
  exact h

theorem validateProperties_members {P : ContractSchema → Prop} {value : JsValue}
    {properties : Option (List (String × ContractSchema))}
    (hValidate : ∀ value label schema, validate value label = .ok schema → P schema)
    (h : validateProperties collation validate type value label = .ok properties) :
    ∀ members, properties = some members → type = some .object ∧ members.length ≤ MAX_PROPERTIES ∧
      (∀ name ∈ keys members, isFieldName name = true) ∧ (keys members).Nodup ∧
      collation.sortEntries members = members ∧ ∀ member ∈ members, P member.2 := by
  rintro members rfl
  by_cases hUndefined : value = .undefined
  · subst hUndefined
    cases h
  · rw [validateProperties_of_ne hUndefined] at h
    obtain ⟨_, hType, h⟩ := bind_eq_ok h
    obtain ⟨entries, _, h⟩ := bind_eq_ok h
    obtain ⟨_, hBounds, h⟩ := bind_eq_ok h
    obtain ⟨found, hRun, h⟩ := bind_eq_ok h
    cases h
    rw [failIf_eq_ok, not_not] at hType
    rw [failIf_eq_ok, not_or, not_not, Nat.not_lt] at hBounds
    obtain ⟨hLength, hNodup, hSorted, hKeys⟩ := fromEntries_of_mapM (fun _ _ => validateMember_key) hRun
    refine ⟨hType, hLength.trans hBounds.1, ?_, hNodup, hSorted, ?_⟩
    · intro name hName
      obtain ⟨entry, hEntry, rfl⟩ := List.mem_map.mp ((hKeys name).mp hName)
      exact hBounds.2 entry hEntry
    · intro member hMem
      exact forall_of_mapM (fun _ _ => validateMember_schema hValidate) hRun member (mem_of_mem_fromEntries hMem)

theorem validateItems_items {P : ContractSchema → Prop} {value : JsValue} {items : Option ContractSchema}
    (hValidate : ∀ value label schema, validate value label = .ok schema → P schema)
    (h : validateItems validate type value label = .ok items) :
    ∀ schema, items = some schema → type = some .array ∧ P schema := by
  rintro schema rfl
  by_cases hUndefined : value = .undefined
  · subst hUndefined
    cases h
  · rw [validateItems_of_ne hUndefined] at h
    obtain ⟨_, hType, h⟩ := bind_eq_ok h
    obtain ⟨found, hRun, h⟩ := bind_eq_ok h
    cases h
    rw [failIf_eq_ok, not_not] at hType
    exact ⟨hType, hValidate _ _ _ hRun⟩

theorem validateSchema_validated {room : Nat} {value : JsValue} {label : String} {schema : ContractSchema}
    (h : validateSchema collation room value label = .ok schema) : Validated collation room schema := by
  induction room generalizing value label schema with
  | zero => cases h
  | succ room ih =>
    obtain ⟨_, _, h⟩ := bind_eq_ok h
    obtain ⟨_, _, h⟩ := bind_eq_ok h
    obtain ⟨type, _, h⟩ := bind_eq_ok h
    obtain ⟨enum, hEnum, h⟩ := bind_eq_ok h
    obtain ⟨required, hRequired, h⟩ := bind_eq_ok h
    obtain ⟨properties, hProperties, h⟩ := bind_eq_ok h
    obtain ⟨items, hItems, h⟩ := bind_eq_ok h
    obtain ⟨_, hConstrained, h⟩ := bind_eq_ok h
    obtain ⟨_, hObject, h⟩ := bind_eq_ok h
    cases h
    rw [failIf_eq_ok] at hConstrained hObject
    have hNames := validateRequired_names hRequired
    have hAllProperties := validateProperties_members (fun _ _ _ => ih) hProperties
    have hAllItems := validateItems_items (fun _ _ _ => ih) hItems
    refine ⟨⟨_, ?_, ?_, ?_⟩, ⟨⟨hConstrained, validateEnum_bounds hEnum, ?_, ?_, ?_⟩, ?_, ?_⟩, ?_⟩
    · exact fun members hSome => (hAllProperties members hSome).2.2.2.1
    · exact fun members hSome member hMem => ((hAllProperties members hSome).2.2.2.2.2 member hMem).proper
    · exact fun schema hSome => (hAllItems schema hSome).2.proper
    · intro names hSome
      refine ⟨?_, (hNames names hSome).1, (hNames names hSome).2.1⟩
      by_contra hType
      exact hObject ⟨by simp [show required = some names from hSome], hType⟩
    · intro members hSome
      obtain ⟨hType, hLength, hFields, _⟩ := hAllProperties members hSome
      exact ⟨hType, hLength, hFields⟩
    · intro hSome
      obtain ⟨schema, hSome⟩ := Option.ne_none_iff_exists'.mp hSome
      exact (hAllItems schema hSome).1
    · exact fun members hSome member hMem => ((hAllProperties members hSome).2.2.2.2.2 member hMem).acceptable
    · exact fun schema hSome => (hAllItems schema hSome).2.acceptable
    · rw [sorted_eq]
      congr
      · rcases required with _ | names
        · rfl
        · exact congrArg some (hNames names rfl).2.2
      · rcases properties with _ | members
        · rfl
        · obtain ⟨_, _, _, _, hSorted, hMembers⟩ := hAllProperties members rfl
          have hSelf : members.map (fun member => (member.1, member.2.sorted collation)) = members := by
            refine (List.map_congr_left fun member hMem => ?_).trans (List.map_id members)
            exact Prod.ext rfl (hMembers member hMem).sorted
          exact congrArg some ((congrArg collation.sortEntries hSelf).trans hSorted)
      · rcases items with _ | schema
        · rfl
        · exact congrArg some (hAllItems schema rfl).2.sorted

theorem Validated.revalidate {room : Nat} {schema : ContractSchema} (h : Validated collation room schema)
    (label : String) : validateSchema collation room schema.toValue label = .ok schema :=
  (validateSchema_reads h.proper label schema).mpr ⟨h.acceptable, h.sorted.symm⟩

theorem Validated.revalidateRoot {schema : ContractSchema} (h : Validated collation (MAX_SCHEMA_DEPTH + 1) schema)
    (label : String) : validateRootSchema collation schema.toValue label = .ok schema := h.revalidate label

theorem validateRootSchema_validated {value : JsValue} {schema : ContractSchema}
    (h : validateRootSchema collation value label = .ok schema) : Validated collation (MAX_SCHEMA_DEPTH + 1) schema :=
  validateSchema_validated h

theorem revalidateEntries {α β : Type} (check : String × α → Except JsError (String × β)) (toValue : β → α)
    {members : List (String × β)} (hSorted : collation.sortEntries members = members)
    (hNodup : (keys members).Nodup) (hCheck : ∀ member ∈ members, check (member.1, toValue member.2) = .ok member) :
    (collation.sortEntries (members.map fun member => (member.1, toValue member.2))).mapM check = .ok members ∧
      fromEntries members = members := by
  refine ⟨?_, fromEntries_eq_self hNodup⟩
  rw [sortEntries_map, hSorted, List.mapM_map]
  refine (mapM_eq_pure (g := id) fun member hMem => hCheck member hMem).trans ?_
  rw [List.map_id]
  rfl

end Schemas

/-! ## Operations -/

section Operations

variable {collation : Collation}

structure ContractOperation.Validated (collation : Collation) (operation : ContractOperation) : Prop where
  method : operation.method ∈ HTTP_METHODS
  path : isOpenApiPath operation.path = true
  request : ∀ schema, operation.request = some schema → Contracts.Validated collation (MAX_SCHEMA_DEPTH + 1) schema
  count : operation.responses ≠ [] ∧ operation.responses.length ≤ 20
  nodup : (keys operation.responses).Nodup
  sorted : collation.sortEntries operation.responses = operation.responses
  responses : ∀ response ∈ operation.responses, isStatus response.1 = true ∧
    ∀ schema, response.2 = some schema → Contracts.Validated collation (MAX_SCHEMA_DEPTH + 1) schema

theorem validateMethod_eq_ok {value : JsValue} {method : String} :
    validateMethod value = .ok method ↔ value = .string method ∧ method ∈ HTTP_METHODS := by
  constructor
  · intro h
    rw [validateMethod.eq_def] at h
    split at h
    · split at h
      · cases h
        exact ⟨rfl, ‹_›⟩
      · cases h
    · cases h
  · rintro ⟨rfl, h⟩
    exact if_pos h

theorem validateOpenApiPath_eq_ok {value : JsValue} {path : String} :
    validateOpenApiPath value = .ok path ↔ value = .string path ∧ isOpenApiPath path = true := by
  constructor
  · intro h
    rw [validateOpenApiPath.eq_def] at h
    split at h
    · split at h
      · cases h
        exact ⟨rfl, ‹_›⟩
      · cases h
    · cases h
  · rintro ⟨rfl, h⟩
    exact if_pos h

theorem validateRequest_of_ne {value : JsValue} (h : value ≠ .undefined) : validateRequest collation value =
    some <$> validateRootSchema collation value "Contract request schema" := by
  rw [validateRequest]
  exact h

theorem validateRequest_validated {value : JsValue} {request : Option ContractSchema}
    (h : validateRequest collation value = .ok request) :
    ∀ schema, request = some schema → Validated collation (MAX_SCHEMA_DEPTH + 1) schema := by
  rintro schema rfl
  by_cases hUndefined : value = .undefined
  · subst hUndefined
    cases h
  · rw [validateRequest_of_ne hUndefined] at h
    rcases hRead : validateRootSchema collation value "Contract request schema" with e | found
    · rw [hRead] at h
      cases h
    · rw [hRead] at h
      cases h
      exact validateRootSchema_validated hRead

theorem validateResponse_of_ne {status : String} {value : JsValue} (h : value ≠ .null) :
    validateResponse collation (status, value) = do
      failIf (isStatus status = false) (contractError "Contract response status is invalid.")
      return (status, some (← validateRootSchema collation value ("Contract response " ++ status ++ " schema"))) := by
  rw [validateResponse]
  congr
  funext _
  split
  · exact absurd ‹_› h
  · rfl

theorem validateResponse_validated {entry : String × JsValue} {response : String × Option ContractSchema}
    (h : validateResponse collation entry = .ok response) : response.1 = entry.1 ∧ isStatus response.1 = true ∧
      ∀ schema, response.2 = some schema → Validated collation (MAX_SCHEMA_DEPTH + 1) schema := by
  obtain ⟨status, value⟩ := entry
  by_cases hNull : value = .null
  · subst hNull
    obtain ⟨_, hStatus, h⟩ := bind_eq_ok h
    cases h
    rw [failIf_eq_ok, Bool.not_eq_false] at hStatus
    exact ⟨rfl, hStatus, fun _ h => nomatch h⟩
  · rw [validateResponse_of_ne hNull] at h
    obtain ⟨_, hStatus, h⟩ := bind_eq_ok h
    obtain ⟨found, hRead, h⟩ := bind_eq_ok h
    cases h
    rw [failIf_eq_ok, Bool.not_eq_false] at hStatus
    refine ⟨rfl, hStatus, ?_⟩
    rintro _ ⟨⟩
    exact validateRootSchema_validated hRead

theorem validateOperation_validated {value : JsValue} {operation : ContractOperation}
    (h : validateOperation collation value = .ok operation) : operation.Validated collation := by
  obtain ⟨record, _, h⟩ := bind_eq_ok h
  obtain ⟨_, _, h⟩ := bind_eq_ok h
  obtain ⟨method, hMethod, h⟩ := bind_eq_ok h
  obtain ⟨path, hPath, h⟩ := bind_eq_ok h
  obtain ⟨responses, _, h⟩ := bind_eq_ok h
  obtain ⟨_, hCount, h⟩ := bind_eq_ok h
  obtain ⟨request, hRequest, h⟩ := bind_eq_ok h
  obtain ⟨entries, hEntries, h⟩ := bind_eq_ok h
  cases h
  rw [failIf_eq_ok, not_or, Nat.not_lt] at hCount
  obtain ⟨hLength, hNodup, hSorted, hKeys⟩ :=
    fromEntries_of_mapM (fun _ _ hResponse => (validateResponse_validated hResponse).1) hEntries
  refine ⟨(validateMethod_eq_ok.mp hMethod).2, (validateOpenApiPath_eq_ok.mp hPath).2,
    validateRequest_validated hRequest, ⟨?_, hLength.trans hCount.2⟩, hNodup, hSorted, ?_⟩
  · rintro (hNil : fromEntries entries = [])
    obtain ⟨entry, hEntry⟩ := List.exists_mem_of_ne_nil responses hCount.1
    have hMem : entry.1 ∈ keys (fromEntries entries) := (hKeys entry.1).mpr (List.mem_map.mpr ⟨entry, hEntry, rfl⟩)
    rw [hNil] at hMem
    cases hMem
  · exact fun response hMem => forall_of_mapM (fun _ _ h => (validateResponse_validated h).2) hEntries response
      (mem_of_mem_fromEntries hMem)

theorem ContractOperation.members (operation : ContractOperation) :
    assertExactKeys operation.fields ["method", "path", "request", "responses"] "Contract operation" = .ok () ∧
      operation.fields.get "method" = .string operation.method ∧
      operation.fields.get "path" = .string operation.path ∧
      operation.fields.get "request" = (operation.request.map (·.toValue)).getD .undefined ∧
      operation.fields.get "responses" =
        .object (operation.responses.map fun entry => (entry.1, entry.2.elim .null (·.toValue))) := by
  obtain ⟨method, path, request, responses⟩ := operation
  rcases request with _ | schema
  · exact ⟨rfl, rfl, rfl, rfl, rfl⟩
  · exact ⟨rfl, rfl, rfl, rfl, rfl⟩

theorem ContractOperation.Validated.revalidate {operation : ContractOperation} (h : operation.Validated collation) :
    validateOperation collation operation.toValue = .ok operation := by
  have hRead : ∀ response ∈ operation.responses,
      validateResponse collation (response.1, response.2.elim .null (·.toValue)) = .ok response := by
    rintro ⟨status, response⟩ hMem
    obtain ⟨hStatus, hSchema⟩ := h.responses _ hMem
    have hPass : failIf (isStatus status = false) (contractError "Contract response status is invalid.") = .ok () :=
      failIf_of_not (by simp [show isStatus status = true from hStatus]) _
    rcases response with _ | schema
    · change (failIf (isStatus status = false) _ >>= _) = _
      rw [hPass]
      rfl
    · change validateResponse collation (status, schema.toValue) = _
      rw [validateResponse_of_ne (by rw [ContractSchema.toValue_eq]; rintro ⟨⟩), hPass, ok_bind,
        (hSchema schema rfl).revalidateRoot]
      rfl
  obtain ⟨hEntries, hFrom⟩ := revalidateEntries (validateResponse collation)
    (fun response => response.elim .null (·.toValue)) h.sorted h.nodup hRead
  have hRequest : validateRequest collation ((operation.request.map (·.toValue)).getD .undefined) =
      .ok operation.request := by
    rcases hSome : operation.request with _ | schema
    · rfl
    · rw [Option.map_some, Option.getD_some, validateRequest_of_ne schema.toValue_ne_undefined,
        (h.request schema hSome).revalidateRoot]
      rfl
  obtain ⟨hKeys, hMethod, hPath, hBody, hResponses⟩ := operation.members
  rw [validateOperation, ContractOperation.toValue, objectAt, Validation.object, ok_bind, hKeys, ok_bind, hMethod,
    validateMethod_eq_ok.mpr ⟨rfl, h.method⟩, ok_bind, hPath, validateOpenApiPath_eq_ok.mpr ⟨rfl, h.path⟩, ok_bind,
    hResponses, objectAt, Validation.object, ok_bind, failIf_of_not, ok_bind, hBody, hRequest, ok_bind, hEntries,
    ok_bind, hFrom]
  · rfl
  · rw [List.map_eq_nil_iff, List.length_map, not_or, Nat.not_lt]
    exact h.count

end Operations

/-! ## Provider capabilities -/

section Capabilities

variable {collation : Collation}

structure ContractProviderCapability.Validated (collation : Collation) (capability : ContractProviderCapability) :
    Prop where
  name : isCapabilityName capability.name = true
  count : capability.capabilities.length ≤ 30
  nodup : (keys capability.capabilities).Nodup
  sorted : collation.sortEntries capability.capabilities = capability.capabilities

theorem flagOf_bool (flag : String × Bool) : flagOf (flag.1, .bool flag.2) = some flag := rfl

theorem validateCapabilityName_eq_ok {value : JsValue} {name : String} :
    validateCapabilityName value = .ok name ↔ value = .string name ∧ isCapabilityName name = true := by
  constructor
  · intro h
    rw [validateCapabilityName.eq_def] at h
    split at h
    · split at h
      · cases h
        exact ⟨rfl, ‹_›⟩
      · cases h
    · cases h
  · rintro ⟨rfl, h⟩
    exact if_pos h

theorem validateFlags_validated {flags : Fields} {values : List (String × Bool)}
    (h : validateFlags collation flags = .ok values) : values.length ≤ 30 ∧ (keys values).Nodup ∧
      collation.sortEntries values = values := by
  obtain ⟨hCount, h⟩ := ite_error_eq_ok h
  split at h
  · rename_i found hFound
    cases h
    have hLength := (mapM_eq_some hFound).length_eq
    have hSorted := collation.sorted_fromEntries (collation.sorted_sortEntries found)
    refine ⟨?_, fromEntries_nodup _, collation.sortEntries_eq_self hSorted⟩
    calc (fromEntries (collation.sortEntries found)).length
        = (keys (fromEntries (collation.sortEntries found))).length := (List.length_map _).symm
      _ ≤ (keys (collation.sortEntries found)).length := (keys_fromEntries_sublist _).length_le
      _ = found.length := by rw [keys, List.length_map, (collation.sortEntries_perm found).length_eq]
      _ ≤ 30 := by omega
  · cases h

theorem validateFlags_of {values : List (String × Bool)} (hCount : values.length ≤ 30) (hNodup : (keys values).Nodup)
    (hSorted : collation.sortEntries values = values) :
    validateFlags collation (values.map fun flag => (flag.1, .bool flag.2)) = .ok values := by
  have hRead : (values.map fun flag => (flag.1, JsValue.bool flag.2)).mapM flagOf = some values := by
    rw [List.mapM_map]
    refine (mapM_eq_pure (g := id) fun flag _ => flagOf_bool flag).trans ?_
    rw [List.map_id]
    rfl
  rw [validateFlags, if_neg (by rw [List.length_map]; omega), hRead]
  change Except.ok (fromEntries (collation.sortEntries values)) = _
  rw [hSorted, fromEntries_eq_self hNodup]

theorem validateCapability_validated {value : JsValue} {capability : ContractProviderCapability}
    (h : validateCapability collation value = .ok capability) : capability.Validated collation := by
  obtain ⟨_, _, h⟩ := bind_eq_ok h
  obtain ⟨_, _, h⟩ := bind_eq_ok h
  obtain ⟨name, hName, h⟩ := bind_eq_ok h
  obtain ⟨version, _, h⟩ := bind_eq_ok h
  obtain ⟨flags, _, h⟩ := bind_eq_ok h
  obtain ⟨values, hValues, h⟩ := bind_eq_ok h
  cases h
  obtain ⟨hCount, hNodup, hSorted⟩ := validateFlags_validated hValues
  exact ⟨(validateCapabilityName_eq_ok.mp hName).2, hCount, hNodup, hSorted⟩

theorem ContractProviderCapability.Validated.revalidate {capability : ContractProviderCapability}
    (h : capability.Validated collation) : validateCapability collation capability.toValue = .ok capability := by
  have hVersion : validatePackVersion (capability.packVersion.elim .null .string) = .ok capability.packVersion := by
    cases capability.packVersion <;> rfl
  calc validateCapability collation capability.toValue
      = (do
          let name ← validateCapabilityName (.string capability.name)
          let packVersion ← validatePackVersion (capability.packVersion.elim .null .string)
          return ⟨name, packVersion,
            ← validateFlags collation (capability.capabilities.map fun flag => (flag.1, .bool flag.2))⟩) := rfl
    _ = .ok capability := by
      rw [validateCapabilityName_eq_ok.mpr ⟨rfl, h.name⟩, ok_bind, hVersion, ok_bind,
        validateFlags_of h.count h.nodup h.sorted]
      rfl

end Capabilities

/-! ## Contracts -/

section Contracts

variable {collation : Collation}

/-- What validateContract promises of a contract that it returns. -/
structure GhostApiContract.Validated (collation : Collation) (contract : GhostApiContract) : Prop where
  title : normalizeTitle (.string contract.metadata.title) = .ok contract.metadata.title
  importedAt : isTimestamp contract.metadata.importedAt = true
  count : 1 ≤ contract.operations.length ∧ contract.operations.length ≤ MAX_OPERATIONS
  operations : ∀ operation ∈ contract.operations, operation.Validated collation
  sorted : sortOperations collation contract.operations = contract.operations
  distinct : (contract.operations.map operationKey).Nodup
  packCount : contract.providerCapabilities.length ≤ 20
  packs : ∀ capability ∈ contract.providerCapabilities, capability.Validated collation
  packsSorted : collation.sortBy (·.name) contract.providerCapabilities = contract.providerCapabilities

theorem firstRepeated_eq_none {seen names : List String} :
    firstRepeated seen names = none ↔ names.Nodup ∧ ∀ name ∈ names, name ∉ seen := by
  induction names generalizing seen with
  | nil => simp [firstRepeated]
  | cons name names ih =>
    rw [firstRepeated, List.nodup_cons, List.forall_mem_cons]
    split
    · rename_i hSeen
      simp [hSeen]
    · rename_i hNew
      rw [ih]
      simp only [List.mem_cons, not_or, forall_and, hNew, not_false_eq_true, true_and]
      constructor
      · rintro ⟨hNodup, hOther, hSeen⟩
        exact ⟨⟨fun hMem => hOther name hMem rfl, hNodup⟩, hSeen⟩
      · rintro ⟨⟨hOther, hNodup⟩, hSeen⟩
        exact ⟨hNodup, fun other hMem hEq => hOther (hEq ▸ hMem), hSeen⟩

theorem assertDistinct_eq_ok {operations : List ContractOperation} :
    assertDistinct operations = .ok () ↔ (operations.map operationKey).Nodup := by
  have hNone : firstRepeated [] (operations.map operationKey) = none ↔ (operations.map operationKey).Nodup := by
    rw [firstRepeated_eq_none]
    simp
  rw [← hNone, assertDistinct]
  split <;> simp_all

theorem normalizeTitle_ok {value : JsValue} {title : String} (h : normalizeTitle value = .ok title) :
    normalizeTitle (.string title) = .ok title := by
  rw [normalizeTitle.eq_def] at h
  split at h
  · rename_i text
    obtain ⟨hLength, h⟩ := ite_error_eq_ok h
    obtain ⟨hSecret, h⟩ := ite_error_eq_ok h
    cases h
    rw [normalizeTitle, trim_idempotent, if_neg hLength, if_neg hSecret]
  · cases h

theorem validateImportedAt_eq_ok {value : JsValue} {text : String} :
    validateImportedAt value = .ok text ↔ value = .string text ∧ isTimestamp text = true := by
  constructor
  · intro h
    rw [validateImportedAt.eq_def] at h
    split at h
    · split at h
      · cases h
        exact ⟨rfl, ‹_›⟩
      · cases h
    · cases h
  · rintro ⟨rfl, h⟩
    exact if_pos h

theorem boundedArray_eq_ok {value : JsValue} {low high : Nat} {message : String} {entries : List JsValue} :
    boundedArray value low high message = .ok entries ↔
      value = .array entries ∧ low ≤ entries.length ∧ entries.length ≤ high := by
  constructor
  · intro h
    rw [boundedArray.eq_def] at h
    split at h
    · obtain ⟨hBounds, h⟩ := ite_error_eq_ok h
      cases h
      exact ⟨rfl, by omega⟩
    · cases h
  · rintro ⟨rfl, hLow, hHigh⟩
    exact if_neg (by omega)

theorem validateContract_validated {input : JsValue} {contract : GhostApiContract}
    (h : validateContract collation input = .ok contract) : contract.Validated collation := by
  obtain ⟨_, _, h⟩ := bind_eq_ok h
  obtain ⟨_, _, h⟩ := bind_eq_ok h
  obtain ⟨_, _, h⟩ := bind_eq_ok h
  obtain ⟨_, _, h⟩ := bind_eq_ok h
  obtain ⟨_, _, h⟩ := bind_eq_ok h
  obtain ⟨source, _, h⟩ := bind_eq_ok h
  obtain ⟨importedAt, hImported, h⟩ := bind_eq_ok h
  obtain ⟨entries, hEntries, h⟩ := bind_eq_ok h
  obtain ⟨operations, hOperations, h⟩ := bind_eq_ok h
  obtain ⟨_, hDistinct, h⟩ := bind_eq_ok h
  obtain ⟨packs, hPacks, h⟩ := bind_eq_ok h
  obtain ⟨capabilities, hCapabilities, h⟩ := bind_eq_ok h
  obtain ⟨title, hTitle, h⟩ := bind_eq_ok h
  cases h
  obtain ⟨_, hCount⟩ := boundedArray_eq_ok.mp hEntries
  obtain ⟨_, hPackCount⟩ := boundedArray_eq_ok.mp hPacks
  have hPerm := collation.sortBy_perm operationKey operations
  have hPackPerm := collation.sortBy_perm (·.name) capabilities
  refine ⟨normalizeTitle_ok hTitle, (validateImportedAt_eq_ok.mp hImported).2, ?_, ?_,
    collation.sortBy_idempotent operationKey operations, assertDistinct_eq_ok.mp hDistinct, ?_, ?_, ?_⟩
  · have hLength := (mapM_eq_ok hOperations).length_eq
    have hSorted := hPerm.length_eq
    change 1 ≤ (collation.sortBy operationKey operations).length ∧
      (collation.sortBy operationKey operations).length ≤ MAX_OPERATIONS
    omega
  · exact fun operation hMem => forall_of_mapM (fun _ _ => validateOperation_validated) hOperations operation
      (hPerm.mem_iff.mp hMem)
  · have hLength := (mapM_eq_ok hCapabilities).length_eq
    have hSorted := hPackPerm.length_eq
    change (collation.sortBy (·.name) capabilities).length ≤ 20
    omega
  · exact fun capability hMem => forall_of_mapM (fun _ _ => validateCapability_validated) hCapabilities capability
      (hPackPerm.mem_iff.mp hMem)
  · exact collation.sortBy_idempotent (·.name) capabilities

theorem GhostApiContract.Validated.revalidate {contract : GhostApiContract} (h : contract.Validated collation) :
    validateContract collation contract.toValue = .ok contract := by
  have hOperations : (contract.operations.map (·.toValue)).mapM (validateOperation collation) =
      .ok contract.operations := by
    rw [List.mapM_map]
    refine (mapM_eq_pure (g := id) fun operation hMem => (h.operations operation hMem).revalidate).trans ?_
    rw [List.map_id]
    rfl
  have hPacks : (contract.providerCapabilities.map (·.toValue)).mapM (validateCapability collation) =
      .ok contract.providerCapabilities := by
    rw [List.mapM_map]
    refine (mapM_eq_pure (g := id) fun capability hMem => (h.packs capability hMem).revalidate).trans ?_
    rw [List.map_id]
    rfl
  have hSource : validateSource (.string contract.metadata.source.text) = .ok contract.metadata.source := by
    cases contract.metadata.source <;> rfl
  calc validateContract collation contract.toValue
      = (do
          let source ← validateSource (.string contract.metadata.source.text)
          let importedAt ← validateImportedAt (.string contract.metadata.importedAt)
          let entries ← boundedArray (.array (contract.operations.map (·.toValue))) 1 MAX_OPERATIONS
            "Contract operations must contain 1-400 entries."
          let operations ← entries.mapM (validateOperation collation)
          assertDistinct (sortOperations collation operations)
          let packs ← boundedArray (.array (contract.providerCapabilities.map (·.toValue))) 0 20
            "Contract provider capabilities are invalid."
          let capabilities ← packs.mapM (validateCapability collation)
          let title ← normalizeTitle (.string contract.metadata.title)
          return ⟨⟨title, source, importedAt⟩, sortOperations collation operations,
            collation.sortBy (·.name) capabilities⟩) := rfl
    _ = .ok contract := by
      rw [hSource, ok_bind, validateImportedAt_eq_ok.mpr ⟨rfl, h.importedAt⟩, ok_bind,
        boundedArray_eq_ok.mpr ⟨rfl, by rw [List.length_map]; exact h.count⟩, ok_bind, hOperations, ok_bind, h.sorted,
        assertDistinct_eq_ok.mpr h.distinct, ok_bind,
        boundedArray_eq_ok.mpr ⟨rfl, Nat.zero_le _, by rw [List.length_map]; exact h.packCount⟩, ok_bind, hPacks,
        ok_bind, h.title, ok_bind, h.packsSorted]
      rfl

end Contracts

end GhostApi.Contracts
