import GhostApi.Contracts.Diff

/-!
# A diff without objections is safe

In the closed world a schema stands for the set of values that it accepts. A
diff that files no breaking and no uncertain finding shows that every value an
existing caller sends is still accepted, and that every value it receives is
one that it knew of before.
-/

namespace GhostApi.Contracts

open Js Validation Effect

/-- Every value that the one schema accepts in the closed world is accepted by the other. -/
def Narrows (narrow wide : ContractSchema) : Prop := ∀ value, narrow.accepts true value = true → wide.accepts true value = true

/-- The direction in which a schema may change without harm to existing callers. -/
def Compatible : DiffContext → ContractSchema → ContractSchema → Prop
  | .request, before, after => Narrows before after
  | .response, before, after => Narrows after before

def Harmless (findings : List ContractDiffFinding) : Prop := ∀ finding ∈ findings, finding.severity = .nonBreaking

/-! ## Findings -/

theorem mem_missing {values others : List String} {value : String} :
    value ∈ missing values others ↔ value ∈ values ∧ value ∉ others := by
  rw [missing, (sortNames_perm _).mem_iff]
  simp

theorem missing_self (values : List String) : missing values values = [] := by
  rw [List.eq_nil_iff_forall_not_mem]
  intro value hMem
  rw [mem_missing] at hMem
  exact hMem.2 hMem.1

theorem harmless_append {xs ys : List ContractDiffFinding} : Harmless (xs ++ ys) ↔ Harmless xs ∧ Harmless ys :=
  List.forall_mem_append

theorem Harmless.subset {values others : List String} {file : String → ContractDiffFinding}
    (h : Harmless ((missing values others).map file)) (hSeverity : ∀ value, (file value).severity ≠ .nonBreaking) :
    ∀ value ∈ values, value ∈ others := by
  intro value hValue
  by_contra hOther
  exact hSeverity value (h _ (List.mem_map_of_mem (mem_missing.mpr ⟨hValue, hOther⟩)))

theorem not_harmless_singleton {finding : ContractDiffFinding} (hSeverity : finding.severity ≠ .nonBreaking) :
    ¬Harmless [finding] := fun h => hSeverity (h finding List.mem_cons_self)

/-! ## The clauses of a harmless change -/

/-- The one direction of a comparison, clause by clause. -/
structure Fits (narrow wide : ContractSchema) : Prop where
  type : narrow.type = wide.type
  enum : ∀ wideEntries, wide.enum = some wideEntries → ∃ narrowEntries, narrow.enum = some narrowEntries ∧
    ∀ text ∈ narrowEntries.map Scalar.stableStringify, text ∈ wideEntries.map Scalar.stableStringify
  required : ∀ name ∈ wide.requiredNames, name ∈ narrow.requiredNames
  known : ∀ name ∈ keys narrow.declared, name ∈ keys wide.declared
  members : ∀ name narrowMember wideMember, narrow.declared.lookup name = some narrowMember →
    wide.declared.lookup name = some wideMember → Narrows narrowMember wideMember
  items : ∀ wideItems, wide.items = some wideItems → ∃ narrowItems, narrow.items = some narrowItems ∧
    Narrows narrowItems wideItems

theorem allows_mono {narrow wide : List Scalar} {value : JsValue}
    (h : ∀ text ∈ narrow.map Scalar.stableStringify, text ∈ wide.map Scalar.stableStringify)
    (hAllows : allows narrow value = true) : allows wide value = true := by
  rw [allows] at hAllows ⊢
  split at hAllows
  · rename_i scalar hScalar
    simp only [List.any_eq_true, beq_iff_eq] at hAllows
    obtain ⟨entry, hEntry, hText⟩ := hAllows
    obtain ⟨other, hOther, hSame⟩ := List.mem_map.mp (h _ (List.mem_map_of_mem hEntry))
    rw [List.any_eq_true]
    exact ⟨other, hOther, by rw [hSame, hText, beq_self_eq_true]⟩
  · cases hAllows

open ContractSchema in
theorem Fits.narrows {narrow wide : ContractSchema} (h : Fits narrow wide) (hWide : (keys wide.declared).Nodup) :
    Narrows narrow wide := by
  intro value hAccepts
  rw [accepts_iff] at hAccepts ⊢
  refine ⟨?_, ?_, ?_, ?_, ?_, ?_⟩
  · intro type hType
    exact hAccepts.type type (h.type.trans hType)
  · intro entries hEntries
    obtain ⟨narrowEntries, hNarrow, hTexts⟩ := h.enum entries hEntries
    exact allows_mono hTexts (hAccepts.enum narrowEntries hNarrow)
  · intro fields hFields name hName
    exact hAccepts.required fields hFields name (h.required name hName)
  · intro hClosed fields hFields name hName
    exact h.known name (hAccepts.known hClosed fields hFields name hName)
  · intro fields hFields name member hMember entry hEntry
    -- in the closed world a present field is declared by the narrow schema too
    have hPresent : name ∈ keys (fromEntries fields) := lookup_isSome.mp (by rw [hEntry]; rfl)
    have hKnown := hAccepts.known rfl fields hFields name hPresent
    obtain ⟨narrowMember, hLookup⟩ := Option.isSome_iff_exists.mp (lookup_isSome.mpr hKnown)
    refine h.members name narrowMember member hLookup (lookup_of_mem hWide hMember) entry ?_
    exact hAccepts.members fields hFields name narrowMember (mem_of_lookup hLookup) entry hEntry
  · intro elements hElements items hItems entry hEntry
    obtain ⟨narrowItems, hNarrow, hNarrows⟩ := h.items items hItems
    exact hNarrows entry (hAccepts.items elements hElements narrowItems hNarrow entry hEntry)

/-! ## What a harmless diff of two schemas shows -/

section Schemas

variable {context : DiffContext} {location : String}

theorem diffEnum_harmless {before after : Option (List Scalar)} (h : Harmless (diffEnum context location before after)) :
    (before = none ∧ after = none) ∨ ∃ beforeEntries afterEntries, before = some beforeEntries ∧
      after = some afterEntries ∧
      (∀ text ∈ beforeEntries.map Scalar.stableStringify, text ∈ afterEntries.map Scalar.stableStringify) ∧
      (context = .response →
        ∀ text ∈ afterEntries.map Scalar.stableStringify, text ∈ beforeEntries.map Scalar.stableStringify) := by
  rcases before with _ | before <;> rcases after with _ | after
  · exact .inl ⟨rfl, rfl⟩
  · exact absurd h (not_harmless_singleton (by rintro ⟨⟩))
  · exact absurd h (not_harmless_singleton (by rintro ⟨⟩))
  · obtain ⟨hRemoved, hAdded⟩ := harmless_append.mp h
    refine .inr ⟨before, after, rfl, rfl, hRemoved.subset fun _ => by rintro ⟨⟩, ?_⟩
    rintro rfl
    exact hAdded.subset fun _ => by rintro ⟨⟩

theorem diffRequired_harmless {before after : List String} (h : Harmless (diffRequired context location before after)) :
    (∀ name ∈ after, name ∈ before) ∧ (context = .response → ∀ name ∈ before, name ∈ after) := by
  obtain ⟨hAdded, hRemoved⟩ := harmless_append.mp h
  constructor
  · refine hAdded.subset fun name => ?_
    cases context <;> rintro ⟨⟩
  · rintro rfl
    exact hRemoved.subset fun _ => by rintro ⟨⟩

theorem diffPropertyNames_harmless {before after : List String}
    (h : Harmless (diffPropertyNames context location before after)) :
    (∀ name ∈ before, name ∈ after) ∧ (context = .response → ∀ name ∈ after, name ∈ before) := by
  obtain ⟨hRemoved, hAdded⟩ := harmless_append.mp h
  constructor
  · refine hRemoved.subset fun name => ?_
    cases context <;> rintro ⟨⟩
  · rintro rfl
    exact hAdded.subset fun _ => by rintro ⟨⟩

theorem mem_diffMembers {members others : List (String × ContractSchema)} {field : String}
    {before after : ContractSchema} (hBefore : (field, before) ∈ members) (hAfter : others.lookup field = some after) :
    (field, diffSchemas context before after (location ++ "." ++ field)) ∈ diffMembers context members others location := by
  induction members with
  | nil => cases hBefore
  | cons head rest ih =>
    obtain ⟨name, schema⟩ := head
    rw [diffMembers]
    rcases List.mem_cons.mp hBefore with h | h
    · cases h
      rw [hAfter]
      exact List.mem_cons_self
    · split
      · exact List.mem_cons_of_mem _ (ih h)
      · exact ih h

theorem mem_sortByName {α : Type} {entries : List (String × α)} {entry : String × α} :
    entry ∈ sortByName entries ↔ entry ∈ entries := (List.mergeSort_perm _ _).mem_iff

theorem diffSchemas_harmless {before after : ContractSchema} (h : Harmless (diffSchemas context before after location)) :
    before.type = after.type ∧ Harmless (diffEnum context location before.enum after.enum) ∧
      Harmless (diffRequired context location before.requiredNames after.requiredNames) ∧
      Harmless (diffPropertyNames context location (keys before.declared) (keys after.declared)) ∧
      (∀ field old new, (field, old) ∈ before.declared → after.declared.lookup field = some new →
        Harmless (diffSchemas context old new (location ++ "." ++ field))) ∧
      ((before.items = none ∧ after.items = none) ∨ ∃ old new, before.items = some old ∧ after.items = some new ∧
        Harmless (diffSchemas context old new (location ++ "[]"))) := by
  obtain ⟨type, enum, required, properties, items⟩ := before
  unfold diffSchemas at h
  split at h
  · exact absurd h (not_harmless_singleton (by rintro ⟨⟩))
  · rename_i hType
    simp only [harmless_append] at h
    obtain ⟨⟨⟨⟨hEnum, hRequired⟩, hNames⟩, hMembers⟩, hItems⟩ := h
    refine ⟨not_not.mp hType, hEnum, hRequired, hNames, ?_, ?_⟩
    · intro field old new hOld hNew finding hFinding
      rcases properties with _ | members
      · cases hOld
      · refine hMembers finding (List.mem_flatMap.mpr ⟨_, mem_sortByName.mpr (mem_diffMembers hOld hNew), hFinding⟩)
    · rcases items with _ | old <;> rcases hAfter : after.items with _ | new <;> rw [hAfter] at hItems
      · exact .inl ⟨rfl, rfl⟩
      · exact absurd hItems (not_harmless_singleton (by rintro ⟨⟩))
      · exact absurd hItems (not_harmless_singleton (by rintro ⟨⟩))
      · exact .inr ⟨old, new, rfl, rfl, hItems⟩

theorem declared_nodup {schema : ContractSchema} (h : schema.Proper) : (keys schema.declared).Nodup := by
  obtain ⟨_, hNodup, _, _⟩ := h
  rw [ContractSchema.declared]
  rcases hProperties : schema.properties with _ | members
  · exact List.nodup_nil
  · exact hNodup members hProperties

theorem declared_proper {schema : ContractSchema} (h : schema.Proper) : ∀ member ∈ schema.declared, member.2.Proper := by
  obtain ⟨_, _, hMembers, _⟩ := h
  rw [ContractSchema.declared]
  rcases hProperties : schema.properties with _ | members
  · simp
  · exact hMembers members hProperties

theorem items_proper {schema items : ContractSchema} (h : schema.Proper) (hItems : schema.items = some items) :
    items.Proper := by
  obtain ⟨_, _, _, hAll⟩ := h
  exact hAll items hItems

/-- The whole comparison, by induction on the schema before the change. -/
theorem diffSchemas_sound (context : DiffContext) {before : ContractSchema} : ∀ {after : ContractSchema} {location : String}, before.Proper →
    after.Proper → Harmless (diffSchemas context before after location) → Compatible context before after := by
  refine ContractSchema.induct (P := fun before => ∀ {after : ContractSchema} {location : String}, before.Proper →
    after.Proper → Harmless (diffSchemas context before after location) → Compatible context before after) ?_ before
  intro before ihMembers ihItems after location hBefore hAfter h
  obtain ⟨hType, hEnum, hRequired, hNames, hMembers, hItems⟩ := diffSchemas_harmless h
  have hRequired := diffRequired_harmless hRequired
  have hNames := diffPropertyNames_harmless hNames
  have hMember : ∀ field old new, before.declared.lookup field = some old → after.declared.lookup field = some new →
      Compatible context old new := by
    intro field old new hOld hNew
    have hMem := mem_of_lookup hOld
    have hNewMem := mem_of_lookup hNew
    rcases hProperties : before.properties with _ | members
    · rw [ContractSchema.declared, hProperties] at hMem
      cases hMem
    · have hIn : (field, old) ∈ members := by rwa [ContractSchema.declared, hProperties] at hMem
      exact ihMembers members hProperties (field, old) hIn (declared_proper hBefore _ hMem)
        (declared_proper hAfter _ hNewMem) (hMembers field old new hMem hNew)
  have hItem : (before.items = none ∧ after.items = none) ∨ ∃ old new, before.items = some old ∧
      after.items = some new ∧ Compatible context old new := by
    rcases hItems with hNone | ⟨old, new, hOld, hNew, hDiff⟩
    · exact .inl hNone
    · exact .inr ⟨old, new, hOld, hNew, ihItems old hOld (items_proper hBefore hOld) (items_proper hAfter hNew) hDiff⟩
  cases context with
  | request =>
    refine Fits.narrows ⟨hType, ?_, hRequired.1, hNames.1, hMember, ?_⟩ (declared_nodup hAfter)
    · intro entries hEntries
      rcases diffEnum_harmless hEnum with ⟨_, hNone⟩ | ⟨old, new, hOld, hNew, hRemoved, _⟩
      · rw [hNone] at hEntries
        cases hEntries
      · rw [hNew] at hEntries
        cases hEntries
        exact ⟨old, hOld, hRemoved⟩
    · intro items hSome
      rcases hItem with ⟨_, hNone⟩ | ⟨old, new, hOld, hNew, hNarrows⟩
      · rw [hNone] at hSome
        cases hSome
      · rw [hNew] at hSome
        cases hSome
        exact ⟨old, hOld, hNarrows⟩
  | response =>
    refine Fits.narrows ⟨hType.symm, ?_, hRequired.2 rfl, hNames.2 rfl, ?_, ?_⟩ (declared_nodup hBefore)
    · intro entries hEntries
      rcases diffEnum_harmless hEnum with ⟨hNone, _⟩ | ⟨old, new, hOld, hNew, _, hAdded⟩
      · rw [hNone] at hEntries
        cases hEntries
      · rw [hOld] at hEntries
        cases hEntries
        exact ⟨new, hNew, hAdded rfl⟩
    · exact fun field new old hNew hOld => hMember field old new hOld hNew
    · intro items hSome
      rcases hItem with ⟨hNone, _⟩ | ⟨old, new, hOld, hNew, hNarrows⟩
      · rw [hNone] at hSome
        cases hSome
      · rw [hOld] at hSome
        cases hSome
        exact ⟨new, hNew, hNarrows⟩

end Schemas

/-! ## Operations -/

/-- An operation after a change that its existing callers need not notice. -/
structure Replaces (before after : ContractOperation) : Prop where
  method : after.method = before.method
  path : after.path = before.path
  request : Option.Rel Narrows before.request after.request
  statuses : ∀ status, status ∈ keys before.responses ↔ status ∈ keys after.responses
  responses : ∀ status old new, (status, old) ∈ before.responses → (status, new) ∈ after.responses →
    Option.Rel Narrows new old

section Operations

variable {collation : Collation}

theorem diffSchema_harmless {context : DiffContext} {before after : Option ContractSchema} {location : String}
    (h : Harmless (diffSchema context before after location)) : (before = none ∧ after = none) ∨
      ∃ old new, before = some old ∧ after = some new ∧ Harmless (diffSchemas context old new location) := by
  rcases before with _ | old <;> rcases after with _ | new
  · exact .inl ⟨rfl, rfl⟩
  · exact absurd h (not_harmless_singleton (by rintro ⟨⟩))
  · exact absurd h (not_harmless_singleton (by rintro ⟨⟩))
  · exact .inr ⟨old, new, rfl, rfl, h⟩

theorem diffCommon_harmless {α : Type} {diff : String → α → α → List ContractDiffFinding}
    {before after : List (String × α)} (h : Harmless (diffCommon diff before after)) {name : String} {left right : α}
    (hLeft : before.lookup name = some left) (hRight : after.lookup name = some right) :
    Harmless (diff name left right) := by
  intro finding hFinding
  refine h finding (List.mem_flatMap.mpr ⟨name, ?_, ?_⟩)
  · rw [(sortNames_perm _).mem_iff, List.mem_filter, List.contains_iff_mem]
    exact ⟨lookup_isSome.mp (by rw [hLeft]; rfl), lookup_isSome.mp (by rw [hRight]; rfl)⟩
  · rw [hLeft, hRight]
    exact hFinding

theorem mapBy_eq {α : Type} {key : α → String} {entries : List α} (h : (entries.map key).Nodup) :
    mapBy key entries = entries.map fun entry => (key entry, entry) := by
  apply fromEntries_eq_self
  rwa [keys, List.map_map]

theorem keys_mapBy {α : Type} {key : α → String} {entries : List α} (h : (entries.map key).Nodup) :
    keys (mapBy key entries) = entries.map key := by
  rw [mapBy_eq h, keys, List.map_map]
  rfl

theorem lookup_mapBy {α : Type} {key : α → String} {entries : List α} (h : (entries.map key).Nodup) {entry : α}
    (hMem : entry ∈ entries) : (mapBy key entries).lookup (key entry) = some entry := by
  refine lookup_of_mem ?_ ?_
  · rwa [keys_mapBy h]
  · rw [mapBy_eq h]
    exact List.mem_map.mpr ⟨entry, hMem, rfl⟩

theorem methods_blankFree : (HTTP_METHODS.all fun method => method.toList.all (· != ' ')) = true := by decide

theorem operationKey_inj {left right : ContractOperation} (hLeft : left.method ∈ HTTP_METHODS)
    (hRight : right.method ∈ HTTP_METHODS) (h : operationKey left = operationKey right) :
    left.method = right.method ∧ left.path = right.path := by
  have hBlank : ∀ method ∈ HTTP_METHODS, ∀ c ∈ method.toList, (c != ' ') = true := fun method hMethod =>
    List.all_eq_true.mp (List.all_eq_true.mp methods_blankFree method hMethod)
  have hSplit : ∀ operation : ContractOperation, operation.method ∈ HTTP_METHODS →
      (operationKey operation).toList.takeWhile (· != ' ') = operation.method.toList := by
    intro operation hMethod
    rw [operationKey, String.toList_append, String.toList_append, List.append_assoc]
    exact (List.takeWhile_append_of_pos (hBlank _ hMethod)).trans (by simp)
  have hMethod : left.method = right.method := by
    rw [← String.toList_inj, ← hSplit left hLeft, ← hSplit right hRight, h]
  refine ⟨hMethod, ?_⟩
  rw [operationKey, operationKey, hMethod, ← String.toList_inj] at h
  simp only [String.toList_append] at h
  exact String.toList_inj.mp (List.append_cancel_left h)

theorem diffOperation_sound {key : String} {before after : ContractOperation} (hBefore : before.Validated collation)
    (hAfter : after.Validated collation) (hKey : operationKey after = operationKey before)
    (h : Harmless (diffOperation key before after)) : Replaces before after := by
  simp only [diffOperation, harmless_append] at h
  obtain ⟨⟨⟨hRequest, hRemoved⟩, hAdded⟩, hCommon⟩ := h
  obtain ⟨hMethod, hPath⟩ := operationKey_inj hAfter.method hBefore.method hKey
  refine ⟨hMethod, hPath, ?_, fun status => ⟨?_, ?_⟩, ?_⟩
  · rcases diffSchema_harmless hRequest with ⟨hOld, hNew⟩ | ⟨old, new, hOld, hNew, hDiff⟩
    · rw [hOld, hNew]
      exact .none
    · rw [hOld, hNew]
      exact .some (diffSchemas_sound .request (hBefore.request old hOld).proper
        (hAfter.request new hNew).proper hDiff)
  · exact hRemoved.subset (fun _ => by rintro ⟨⟩) status
  · exact hAdded.subset (fun _ => by rintro ⟨⟩) status
  · intro status old new hOld hNew
    have hDiff := diffCommon_harmless hCommon (lookup_of_mem hBefore.nodup hOld) (lookup_of_mem hAfter.nodup hNew)
    rcases diffSchema_harmless hDiff with ⟨rfl, rfl⟩ | ⟨oldSchema, newSchema, rfl, rfl, hDiff⟩
    · exact .none
    · exact .some (diffSchemas_sound .response ((hBefore.responses _ hOld).2 oldSchema rfl).proper
        ((hAfter.responses _ hNew).2 newSchema rfl).proper hDiff)

theorem diffOperations_sound {before after : GhostApiContract} (hBefore : before.Validated collation)
    (hAfter : after.Validated collation) (h : Harmless (diffOperations before.operations after.operations)) :
    ∀ old ∈ before.operations, ∃ new ∈ after.operations, Replaces old new := by
  simp only [diffOperations, harmless_append] at h
  obtain ⟨⟨hRemoved, _⟩, hCommon⟩ := h
  intro old hOld
  have hKeys := hRemoved.subset (fun _ => by rintro ⟨⟩) (operationKey old)
  rw [keys_mapBy hBefore.distinct, keys_mapBy hAfter.distinct] at hKeys
  obtain ⟨new, hNew, hKey⟩ := List.mem_map.mp (hKeys (List.mem_map_of_mem hOld))
  have hLeft := lookup_mapBy hBefore.distinct hOld
  have hRight := lookup_mapBy hAfter.distinct hNew
  rw [hKey] at hRight
  exact ⟨new, hNew, diffOperation_sound (hBefore.operations old hOld) (hAfter.operations new hNew) hKey
    (diffCommon_harmless hCommon hLeft hRight)⟩

end Operations

/-! ## A contract compared with itself -/

section Self

variable {collation : Collation} {context : DiffContext} {location : String}

theorem diffEnum_self (enum : Option (List Scalar)) : diffEnum context location enum enum = [] := by
  rcases enum with _ | entries
  · rfl
  · simp [diffEnum, missing_self]

theorem diffMembers_nil (context : DiffContext) (location : String) {members others : List (String × ContractSchema)}
    (h : ∀ field old new, (field, old) ∈ members → others.lookup field = some new →
      diffSchemas context old new (location ++ "." ++ field) = []) :
    ∀ entry ∈ diffMembers context members others location, entry.2 = [] := by
  induction members with
  | nil => exact fun _ h => nomatch h
  | cons head rest ih =>
    obtain ⟨field, old⟩ := head
    have hRest := ih fun field old new hMem => h field old new (List.mem_cons_of_mem _ hMem)
    rw [diffMembers]
    split
    · rename_i new hNew
      rw [List.forall_mem_cons]
      exact ⟨h field old new List.mem_cons_self hNew, hRest⟩
    · exact hRest

theorem diffSchemas_self {schema : ContractSchema} : ∀ {location : String}, schema.Proper →
    diffSchemas context schema schema location = [] := by
  refine ContractSchema.induct (P := fun schema => ∀ {location : String}, schema.Proper →
    diffSchemas context schema schema location = []) ?_ schema
  intro schema ihMembers ihItems location hProper
  have hNodup := declared_nodup hProper
  have hMembersProper := declared_proper hProper
  obtain ⟨type, enum, required, properties, items⟩ := schema
  have hRequired : diffRequired context location (required.getD []) (required.getD []) = [] := by
    simp [diffRequired, missing_self]
  have hNames : diffPropertyNames context location (keys (properties.getD [])) (keys (properties.getD [])) = [] := by
    simp [diffPropertyNames, missing_self]
  unfold diffSchemas
  rw [if_neg (not_not.mpr rfl), diffEnum_self]
  change [] ++ diffRequired context location (required.getD []) (required.getD []) ++
    diffPropertyNames context location (keys (properties.getD [])) (keys (properties.getD [])) ++ _ ++ _ = []
  rw [hRequired, hNames]
  cases properties with
  | none =>
    cases items with
    | none => rfl
    | some element => exact ihItems element rfl (items_proper hProper rfl)
  | some members =>
    have hMembers : ∀ entry ∈ diffMembers context members members location, entry.2 = [] := by
      refine diffMembers_nil context location fun field old new hOld hNew => ?_
      have hSame : members.lookup field = some old := lookup_of_mem hNodup hOld
      rw [hSame] at hNew
      cases hNew
      exact ihMembers members rfl (field, old) hOld (hMembersProper _ hOld)
    have hFlat : (sortByName (diffMembers context members members location)).flatMap Prod.snd = [] := by
      rw [List.flatMap_eq_nil_iff]
      exact fun entry hEntry => hMembers entry (mem_sortByName.mp hEntry)
    change [] ++ [] ++ [] ++ (sortByName (diffMembers context members members location)).flatMap Prod.snd ++ _ = []
    rw [hFlat]
    cases items with
    | none => rfl
    | some element => exact ihItems element rfl (items_proper hProper rfl)

theorem diffSchema_self {schema : Option ContractSchema} (h : ∀ found, schema = some found → found.Proper) :
    diffSchema context schema schema location = [] := by
  rcases schema with _ | found
  · rfl
  · exact diffSchemas_self (h found rfl)

theorem diffCommon_self {α : Type} (diff : String → α → α → List ContractDiffFinding) {entries : List (String × α)}
    (h : ∀ name entry, (name, entry) ∈ entries → diff name entry entry = []) : diffCommon diff entries entries = [] := by
  rw [diffCommon, List.flatMap_eq_nil_iff]
  intro name _
  split
  · rename_i left right hLeft hRight
    rw [hLeft] at hRight
    cases hRight
    exact h name left (mem_of_lookup hLeft)
  · rfl

theorem diffCapability_self (name : String) (capability : ContractProviderCapability) :
    diffCapability name capability capability = [] := by
  rw [diffCapability, if_pos rfl, List.nil_append, diffFlags, List.flatMap_eq_nil_iff]
  exact fun _ _ => if_pos rfl

theorem diffOperation_self {key : String} {operation : ContractOperation} (h : operation.Validated collation) :
    diffOperation key operation operation = [] := by
  have hRequest : diffSchema .request operation.request operation.request (key ++ " request") = [] :=
    diffSchema_self fun found hFound => (h.request found hFound).proper
  have hResponses : diffCommon (fun status before after => diffSchema .response before after (key ++ " response " ++ status))
      operation.responses operation.responses = [] :=
    diffCommon_self _ fun status response hMem =>
      diffSchema_self fun found hFound => ((h.responses _ hMem).2 found hFound).proper
  rw [diffOperation, hRequest, hResponses, missing_self]
  rfl

theorem findings_self {contract : GhostApiContract} (h : contract.Validated collation) :
    diffOperations contract.operations contract.operations ++
      diffProviderCapabilities contract.providerCapabilities contract.providerCapabilities = [] := by
  have hOperations : diffCommon diffOperation (mapBy operationKey contract.operations)
      (mapBy operationKey contract.operations) = [] := by
    refine diffCommon_self _ fun key operation hMem => ?_
    obtain ⟨found, hFound, hEq⟩ := List.mem_map.mp (mem_of_mem_fromEntries hMem)
    cases hEq
    exact diffOperation_self (h.operations _ hFound)
  have hPacks : diffCommon diffCapability (mapBy (·.name) contract.providerCapabilities)
      (mapBy (·.name) contract.providerCapabilities) = [] :=
    diffCommon_self _ fun name capability _ => diffCapability_self name capability
  rw [diffOperations, diffProviderCapabilities, hOperations, hPacks]
  simp only [missing_self]
  rfl

end Self

/-! ## The whole diff -/

section Contracts

variable {collation : Collation}

theorem contractHash_of_validated {contract : GhostApiContract} (h : contract.Validated collation) :
    contractHash collation contract.toValue = .ok (sha256 (stableStringify collation contract.toValue)) := by
  rw [contractHash, h.revalidate]
  rfl

theorem diffContracts_eq {baselineInput candidateInput : JsValue} {baseline candidate : GhostApiContract}
    (hBaseline : validateContract collation baselineInput = .ok baseline)
    (hCandidate : validateContract collation candidateInput = .ok candidate) :
    ∃ diff, diffContracts collation baselineInput candidateInput = .ok diff ∧
      diff.findings = collation.sortBy (·.id) (diffOperations baseline.operations candidate.operations ++
        diffProviderCapabilities baseline.providerCapabilities candidate.providerCapabilities) ∧
      diff.summary.breaking = diff.findings.countP (·.severity == .breaking) ∧
      diff.summary.uncertain = diff.findings.countP (·.severity == .uncertain) := by
  rw [diffContracts, hBaseline, ok_bind, hCandidate, ok_bind,
    contractHash_of_validated (validateContract_validated hBaseline), ok_bind,
    contractHash_of_validated (validateContract_validated hCandidate), ok_bind]
  exact ⟨_, rfl, rfl, rfl, rfl⟩

theorem harmless_of_counts {findings : List ContractDiffFinding}
    (hBreaking : findings.countP (·.severity == .breaking) = 0)
    (hUncertain : findings.countP (·.severity == .uncertain) = 0) : Harmless findings := by
  intro finding hMem
  have hNotBreaking := List.countP_eq_zero.mp hBreaking finding hMem
  have hNotUncertain := List.countP_eq_zero.mp hUncertain finding hMem
  cases hSeverity : finding.severity
  · simp [hSeverity] at hNotBreaking
  · rfl
  · simp [hSeverity] at hNotUncertain

/-- A contract of one operation whose request is one of the listed words. -/
def wordContract (words : List String) : GhostApiContract where
  metadata := ⟨"Orders", .openapi, "2026-01-01T00:00:00Z"⟩
  operations := [⟨"GET", "/orders", some { enum := some (words.map .string) }, [("200", none)]⟩]
  providerCapabilities := []

theorem wordContract_validated {words : List String} (hNe : words ≠ []) (hLength : words.length ≤ 100) :
    (wordContract words).Validated collation where
  title := (by decide +kernel : normalizeTitle (.string "Orders") = .ok "Orders")
  importedAt := (by decide +kernel : isTimestamp "2026-01-01T00:00:00Z" = true)
  count := ⟨Nat.le_refl 1, show 1 ≤ 400 by decide⟩
  operations := by
    rintro _ hMem
    rw [wordContract, List.mem_singleton] at hMem
    subst hMem
    refine ⟨(by decide : "GET" ∈ HTTP_METHODS), (by decide : isOpenApiPath "/orders" = true), ?_, ⟨by simp, by simp⟩,
      by simp [keys], ?_, ?_⟩
    · rintro _ ⟨⟩
      refine ⟨⟨_, by simp, by simp, by simp⟩, ?_, rfl⟩
      refine ⟨⟨by simp, ?_, by simp, by simp, fun h => absurd rfl h⟩, by simp, by simp⟩
      rintro _ ⟨⟩
      exact ⟨by simpa using hNe, by simpa using hLength⟩
    · simp [Collation.sortEntries, Collation.sortBy]
    · rintro _ hMem
      rw [List.mem_singleton] at hMem
      subst hMem
      exact ⟨by decide, by simp⟩
  sorted := by simp [sortOperations, Collation.sortBy, wordContract]
  distinct := by simp [wordContract]
  packCount := Nat.zero_le 20
  packs := by simp [wordContract]
  packsSorted := by simp [Collation.sortBy, wordContract]

theorem wordContract_findings : diffOperations (wordContract ["open"]).operations
    (wordContract ["open", "paid"]).operations ++ diffProviderCapabilities (wordContract ["open"]).providerCapabilities
      (wordContract ["open", "paid"]).providerCapabilities =
      [finding "enum-value-added" "GET /orders request.\"paid\"" .nonBreaking
        "GET /orders request enum value added: \"paid\"."] := by
  have hRemoved : missing ["\"open\""] ["\"open\"", "\"paid\""] = [] := by
    rw [missing, (by decide +kernel : ["\"open\""].eraseDups.filter _ = [])]
    exact List.mergeSort_nil
  have hAdded : missing ["\"open\"", "\"paid\""] ["\"open\""] = ["\"paid\""] := by
    rw [missing, (by decide +kernel : ["\"open\"", "\"paid\""].eraseDups.filter _ = ["\"paid\""])]
    exact List.mergeSort_singleton _
  have hOpen : (Scalar.string "open").stableStringify = "\"open\"" := by decide +kernel
  have hPaid : (Scalar.string "paid").stableStringify = "\"paid\"" := by decide +kernel
  simp [diffOperations, diffProviderCapabilities, wordContract, mapBy, fromEntries, setMember, Table.upsert_nil,
    operationKey, keys, missing_self, sortNames, diffCommon, diffOperation, diffSchema, diffSchemas, diffEnum, hOpen,
    hPaid, hRemoved, hAdded, diffRequired, diffPropertyNames, ContractSchema.declared, ContractSchema.requiredNames]

/-- What the validator returns, written out as data, is accepted again as the same contract and keeps its hash. -/
theorem validateContract_idempotent {input : JsValue} {contract : GhostApiContract}
    (h : validateContract collation input = .ok contract) : validateContract collation contract.toValue = .ok contract ∧
      contractHash collation contract.toValue = contractHash collation input := by
  have hValidated := validateContract_validated h
  refine ⟨hValidated.revalidate, ?_⟩
  rw [contractHash_of_validated hValidated, contractHash, h]
  rfl

/-- The members of a contract in another order. -/
def turnedContract : JsValue :=
  .object [("providerCapabilities", .array []),
    ("operations", .array ((wordContract ["open"]).operations.map (·.toValue))),
    ("metadata", (wordContract ["open"]).metadata.toValue), ("kind", .string "ghostapi.contract"),
    ("schemaVersion", .number (.integer 1))]

theorem validateContract_idempotent_turned :
    validateContract .codeUnits (wordContract ["open"]).toValue = .ok (wordContract ["open"]) ∧
      contractHash .codeUnits (wordContract ["open"]).toValue = contractHash .codeUnits turnedContract :=
  have hSame : validateContract .codeUnits turnedContract = validateContract .codeUnits (wordContract ["open"]).toValue := rfl
  validateContract_idempotent (hSame.trans (wordContract_validated (by simp) (by simp)).revalidate)

end Contracts

end GhostApi.Contracts
