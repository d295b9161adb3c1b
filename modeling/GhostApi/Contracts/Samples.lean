import GhostApi.Contracts.Inference
import Mathlib.Data.List.Perm.Subperm

/-!
# What a list of samples has in common

The samples of one place are folded with merge. The fold depends on the
samples only: it is the summary of their list, which says what they have in
common, and a summary neither knows the grouping nor the order of its samples.
-/

namespace GhostApi.Contracts

open Js Validation Effect

/-! ## Samples -/

def kindOf : JsValue → Option SchemaType
  | .null => some .null
  | .array _ => some .array
  | .string _ => some .string
  | .bool _ => some .boolean
  | .number n => some (integerOrNumber n)
  | .object _ => some .object
  | .undefined => none

def elementsOf : JsValue → List JsValue
  | .array elements => elements
  | _ => []

def membersOf : JsValue → Fields
  | .object fields => entriesOf fields
  | _ => []

def memberOf (name : String) (value : JsValue) : Option JsValue := (membersOf value).lookup name

/-- The names that every sample has, in the order of the first. -/
def commonNames : List JsValue → List String
  | [] => []
  | first :: rest => (keys (membersOf first)).filter fun name =>
      rest.all fun value => (keys (membersOf value)).contains name

def objectSchema (members : List (String × ContractSchema)) : ContractSchema :=
  { type := some .object, required := some (sortNames (keys members)), properties := some members }

theorem nodup_membersOf (value : JsValue) : (keys (membersOf value)).Nodup := by
  cases value
  case object fields => exact fromEntries_nodup fields
  all_goals exact List.nodup_nil

theorem memberOf_isSome {name : String} {value : JsValue} :
    (memberOf name value).isSome ↔ name ∈ keys (membersOf value) := lookup_isSome

theorem mem_commonNames {samples : List JsValue} (hNe : samples ≠ []) {name : String} :
    name ∈ commonNames samples ↔ ∀ value ∈ samples, name ∈ keys (membersOf value) := by
  cases samples with
  | nil => exact absurd rfl hNe
  | cons first rest => simp [commonNames, List.mem_filter]

theorem nodup_commonNames (samples : List JsValue) : (commonNames samples).Nodup := by
  cases samples with
  | nil => exact List.nodup_nil
  | cons first rest => exact (nodup_membersOf first).filter _

section Summary

variable (collation : Collation)

/-- The order of the members: that of one sample alone, or that of a merge. -/
def arrange (samples : List JsValue) (members : List (String × ContractSchema)) : List (String × ContractSchema) :=
  match samples with
  | [_] => collation.sortEntries members
  | _ => sortByName members

/-- The members that every sample has, each with the summary of its values. -/
def commonMembers (inner : List JsValue → Option ContractSchema) (samples : List JsValue) :
    List (String × ContractSchema) :=
  (commonNames samples).map fun name => (name, (inner (samples.filterMap (memberOf name))).getD {})

def describe (inner : List JsValue → Option ContractSchema) (samples : List JsValue) :
    Option SchemaType → ContractSchema
  | some .array => { type := some .array, items := inner (samples.flatMap elementsOf) }
  | some .object => objectSchema (arrange collation samples (commonMembers inner samples))
  | kind => { type := kind }

/-- The schema of a list of samples; samples of different kinds have nothing in common. -/
def summary : Nat → List JsValue → Option ContractSchema
  | _, [] => none
  | 0, _ :: _ => some {}
  | room + 1, first :: rest => some
      (if ∀ value ∈ rest, kindOf value = kindOf first then
        describe collation (summary room) (first :: rest) (kindOf first)
      else {})

variable {collation} {room : Nat} {samples : List JsValue}

theorem summary_eq_none : summary collation room samples = none ↔ samples = [] := by
  cases room <;> cases samples <;> simp [summary]

theorem summary_isSome (h : samples ≠ []) : ∃ schema, summary collation room samples = some schema :=
  Option.ne_none_iff_exists'.mp (fun hNone => h (summary_eq_none.mp hNone))

theorem summary_zero (h : samples ≠ []) : summary collation 0 samples = some {} := by
  cases samples with
  | nil => exact absurd rfl h
  | cons first rest => rfl

theorem summary_same {kind : Option SchemaType} (hNe : samples ≠ []) (h : ∀ value ∈ samples, kindOf value = kind) :
    summary collation (room + 1) samples = some (describe collation (summary collation room) samples kind) := by
  cases samples with
  | nil => exact absurd rfl hNe
  | cons first rest =>
    rw [List.forall_mem_cons] at h
    obtain ⟨rfl, hRest⟩ := h
    rw [summary, if_pos hRest]

theorem summary_mixed {a b : JsValue} (ha : a ∈ samples) (hb : b ∈ samples) (h : kindOf a ≠ kindOf b) :
    summary collation (room + 1) samples = some {} := by
  cases samples with
  | nil => cases ha
  | cons first rest =>
    rw [summary, if_neg]
    intro hRest
    have hSame : ∀ value ∈ first :: rest, kindOf value = kindOf first := List.forall_mem_cons.mpr ⟨rfl, hRest⟩
    exact h ((hSame a ha).trans (hSame b hb).symm)

theorem kinds_cases (samples : List JsValue) (hNe : samples ≠ []) :
    (∃ kind, ∀ value ∈ samples, kindOf value = kind) ∨ ∃ a ∈ samples, ∃ b ∈ samples, kindOf a ≠ kindOf b := by
  by_cases h : ∃ a ∈ samples, ∃ b ∈ samples, kindOf a ≠ kindOf b
  · exact .inr h
  · push Not at h
    obtain ⟨first, hFirst⟩ := List.exists_mem_of_ne_nil samples hNe
    exact .inl ⟨kindOf first, fun value hMem => h value hMem first hFirst⟩

theorem describe_type (inner : List JsValue → Option ContractSchema) (kind : Option SchemaType) :
    (describe collation inner samples kind).type = kind := by
  rcases kind with _ | kind
  · rfl
  · cases kind <;> rfl

end Summary

/-! ## Merging summaries -/

section Merging

theorem merge_of_ne {left right : ContractSchema} (h : left.type ≠ right.type) : merge left right = {} := by
  obtain ⟨type, enum, required, properties, items⟩ := left
  rw [merge.eq_def]
  exact if_pos h

theorem merge_typed {kind : Option SchemaType} (hArray : kind ≠ some .array) (hObject : kind ≠ some .object) :
    merge { type := kind } { type := kind } = { type := kind } := by
  rw [merge.eq_def]
  simp [hArray, hObject, mergeEnum]

theorem merge_arrays (left right : Option ContractSchema) :
    merge { type := some .array, items := left } { type := some .array, items := right } =
      { type := some .array, items := Option.merge merge left right } := by
  rw [merge.eq_def]
  cases left <;> cases right <;> rfl

theorem merge_objects (left right : List (String × ContractSchema)) :
    merge (objectSchema left) (objectSchema right) = {
      type := some .object
      required := some (sortNames ((sortNames (keys left)).filter fun name =>
        (sortNames (keys right)).contains name && (keys (sortByName (mergeMembers left right))).contains name))
      properties := some (sortByName (mergeMembers left right)) } := by
  rw [merge.eq_def]
  rfl

theorem keys_mergeMembers_sublist (left right : List (String × ContractSchema)) :
    (keys (mergeMembers left right)).Sublist (keys left) := by
  induction left with
  | nil => exact List.Sublist.slnil
  | cons member rest ih =>
    rw [mergeMembers]
    split
    · exact ih.cons_cons _
    · exact ih.cons _

theorem lookup_mergeMembers {left : List (String × ContractSchema)} (hNodup : (keys left).Nodup)
    (right : List (String × ContractSchema)) (name : String) :
    (mergeMembers left right).lookup name =
      (left.lookup name).bind fun own => (right.lookup name).map fun other => merge own other := by
  induction left with
  | nil => rfl
  | cons member rest ih =>
    obtain ⟨key, schema⟩ := member
    rw [keys_cons, List.nodup_cons] at hNodup
    have hRest := ih hNodup.2
    by_cases hName : name = key
    · subst hName
      have hNone : (mergeMembers rest right).lookup name = none := by
        rw [lookup_eq_none]
        exact fun hMem => hNodup.1 ((keys_mergeMembers_sublist rest right).subset hMem)
      rw [mergeMembers, List.lookup_cons_self, Option.bind_some]
      split
      · rename_i other hOther
        rw [List.lookup_cons_self, hOther, Option.map_some]
      · rename_i hOther
        rw [hNone, hOther, Option.map_none]
    · have hBeq : (name == key) = false := beq_eq_false_iff_ne.mpr hName
      rw [mergeMembers, List.lookup_cons, hBeq]
      split
      · rw [List.lookup_cons, hBeq]
        exact hRest
      · exact hRest

theorem mem_keys_mergeMembers {left : List (String × ContractSchema)} (hNodup : (keys left).Nodup)
    {right : List (String × ContractSchema)} {name : String} :
    name ∈ keys (mergeMembers left right) ↔ name ∈ keys left ∧ name ∈ keys right := by
  rw [← lookup_isSome, ← lookup_isSome, ← lookup_isSome, lookup_mergeMembers hNodup]
  cases left.lookup name <;> cases right.lookup name <;> simp

theorem merge_objectSchema {left right members : List (String × ContractSchema)} (hLeft : (keys left).Nodup)
    (hMembers : sortByName (mergeMembers left right) = members) :
    merge (objectSchema left) (objectSchema right) = objectSchema members := by
  rw [merge_objects, hMembers, objectSchema]
  have hPerm : members.Perm (mergeMembers left right) := hMembers ▸ sortByName_perm _
  have hNodup : (keys members).Nodup :=
    (hPerm.map Prod.fst).nodup_iff.mpr (hLeft.sublist (keys_mergeMembers_sublist left right))
  have hMem : ∀ name, name ∈ keys members ↔ name ∈ keys left ∧ name ∈ keys right :=
    fun name => (hPerm.map Prod.fst).mem_iff.trans (mem_keys_mergeMembers hLeft)
  have hRequired : sortNames ((sortNames (keys left)).filter fun name =>
      (sortNames (keys right)).contains name && (keys members).contains name) = sortNames (keys members) := by
    apply sortNames_congr
    have hFiltered := ((sortNames_perm (keys left)).nodup_iff.mpr hLeft).filter fun name =>
      (sortNames (keys right)).contains name && (keys members).contains name
    rw [List.perm_ext_iff_of_nodup hFiltered hNodup]
    intro name
    simp only [List.mem_filter, (sortNames_perm _).mem_iff, List.contains_iff_mem, Bool.and_eq_true, hMem]
    tauto
  rw [hRequired]

section Appending

variable {collation : Collation} {inner : List JsValue → Option ContractSchema} {samples others : List JsValue}

theorem arrange_perm (samples : List JsValue) (members : List (String × ContractSchema)) :
    (arrange collation samples members).Perm members := by
  rw [arrange.eq_def]
  split
  · exact collation.sortEntries_perm members
  · exact sortByName_perm members

theorem arrange_append (hSamples : samples ≠ []) (hOthers : others ≠ []) (members : List (String × ContractSchema)) :
    arrange collation (samples ++ others) members = sortByName members := by
  rw [arrange.eq_def]
  split
  · rename_i value hSingle
    have hLength := congrArg List.length hSingle
    have hLeft := List.length_pos_iff.mpr hSamples
    have hRight := List.length_pos_iff.mpr hOthers
    rw [List.length_append, List.length_singleton] at hLength
    omega
  · rfl

theorem keys_commonMembers (inner : List JsValue → Option ContractSchema) (samples : List JsValue) :
    keys (commonMembers inner samples) = commonNames samples := keys_tabulate _ _

theorem nodup_commonMembers (inner : List JsValue → Option ContractSchema) (samples : List JsValue) :
    (keys (commonMembers inner samples)).Nodup := by
  rw [keys_commonMembers]
  exact nodup_commonNames samples

theorem lookup_commonMembers (inner : List JsValue → Option ContractSchema) (samples : List JsValue) (name : String) :
    (commonMembers inner samples).lookup name =
      if name ∈ commonNames samples then some ((inner (samples.filterMap (memberOf name))).getD {}) else none :=
  lookup_tabulate _ _ _

theorem nodup_arrange (samples others : List JsValue) :
    (keys (arrange collation samples (commonMembers inner others))).Nodup :=
  ((arrange_perm samples _).map Prod.fst).nodup_iff.mpr (nodup_commonMembers inner others)

theorem lookup_arrange (samples others : List JsValue) (name : String) :
    (arrange collation samples (commonMembers inner others)).lookup name =
      (commonMembers inner others).lookup name :=
  lookup_perm (nodup_commonMembers inner others) (arrange_perm samples _).symm name

theorem filterMap_memberOf_ne_nil {name : String} (hNe : samples ≠ []) (h : name ∈ commonNames samples) :
    samples.filterMap (memberOf name) ≠ [] := by
  obtain ⟨value, hValue⟩ := List.exists_mem_of_ne_nil samples hNe
  obtain ⟨entry, hEntry⟩ := Option.isSome_iff_exists.mp (memberOf_isSome.mpr ((mem_commonNames hNe).mp h value hValue))
  exact List.ne_nil_of_mem (List.mem_filterMap.mpr ⟨value, hValue, hEntry⟩)

theorem merge_describe_object (hSome : ∀ zs, zs ≠ [] → ∃ schema, inner zs = some schema)
    (hInner : ∀ zs ws, Option.merge merge (inner zs) (inner ws) = inner (zs ++ ws)) (hSamples : samples ≠ [])
    (hOthers : others ≠ []) :
    merge (describe collation inner samples (some .object)) (describe collation inner others (some .object)) =
      describe collation inner (samples ++ others) (some .object) := by
  have hAppend : samples ++ others ≠ [] := List.append_ne_nil_of_left_ne_nil hSamples _
  have hNames : ∀ name, name ∈ commonNames (samples ++ others) ↔
      name ∈ commonNames samples ∧ name ∈ commonNames others := by
    intro name
    rw [mem_commonNames hAppend, mem_commonNames hSamples, mem_commonNames hOthers, List.forall_mem_append]
  rw [describe, describe, describe, arrange_append hSamples hOthers]
  apply merge_objectSchema (nodup_arrange samples samples)
  apply sortByName_congr _ (nodup_commonMembers inner (samples ++ others))
  · intro name
    rw [lookup_mergeMembers (nodup_arrange samples samples), lookup_arrange, lookup_arrange]
    simp only [lookup_commonMembers, hNames]
    by_cases hLeft : name ∈ commonNames samples
    · by_cases hRight : name ∈ commonNames others
      · obtain ⟨left, hLeftSome⟩ := hSome _ (filterMap_memberOf_ne_nil hSamples hLeft)
        obtain ⟨right, hRightSome⟩ := hSome _ (filterMap_memberOf_ne_nil hOthers hRight)
        have hJoin := hInner (samples.filterMap (memberOf name)) (others.filterMap (memberOf name))
        rw [hLeftSome, hRightSome] at hJoin
        simp only [hLeft, hRight, if_true, and_self, Option.bind_some, Option.map_some, hLeftSome, hRightSome,
          Option.getD_some, List.filterMap_append, ← hJoin, Option.merge_some_some]
      · simp [hRight]
    · simp [hLeft]
  · exact (nodup_arrange samples samples).sublist (keys_mergeMembers_sublist _ _)

end Appending

theorem merge_empty_summary {collation : Collation} {room : Nat} {samples : List JsValue} {schema : ContractSchema}
    (h : summary collation (room + 1) samples = some schema) : merge {} schema = {} ∧ merge schema {} = {} := by
  have hNe : samples ≠ [] := by
    rintro rfl
    cases h
  rcases kinds_cases samples hNe with ⟨kind, hKind⟩ | ⟨a, ha, b, hb, hDiffer⟩
  · rw [summary_same hNe hKind, Option.some.injEq] at h
    have hType : schema.type = kind := h ▸ describe_type _ kind
    cases kind with
    | none =>
      rw [← h]
      exact ⟨rfl, rfl⟩
    | some kind =>
      exact ⟨merge_of_ne (by rw [hType]; simp), merge_of_ne (by rw [hType]; simp)⟩
  · rw [summary_mixed ha hb hDiffer, Option.some.injEq] at h
    rw [← h]
    exact ⟨rfl, rfl⟩

theorem summary_append {collation : Collation} (room : Nat) (samples others : List JsValue) :
    mergeSchemas (summary collation room samples) (summary collation room others) =
      summary collation room (samples ++ others) := by
  induction room generalizing samples others with
  | zero =>
    by_cases hSamples : samples = []
    · subst hSamples
      cases others <;> rfl
    by_cases hOthers : others = []
    · subst hOthers
      rw [List.append_nil]
      cases samples <;> rfl
    rw [summary_zero hSamples, summary_zero hOthers, summary_zero (List.append_ne_nil_of_left_ne_nil hSamples _)]
    rfl
  | succ room ih =>
    by_cases hSamples : samples = []
    · subst hSamples
      cases others <;> rfl
    by_cases hOthers : others = []
    · subst hOthers
      rw [List.append_nil]
      cases samples <;> rfl
    have hAppend : samples ++ others ≠ [] := List.append_ne_nil_of_left_ne_nil hSamples _
    rcases kinds_cases (samples ++ others) hAppend with ⟨kind, hKind⟩ | ⟨a, ha, b, hb, hDiffer⟩
    · have hLeft := fun value hMem => hKind value (List.mem_append_left _ hMem)
      have hRight := fun value hMem => hKind value (List.mem_append_right _ hMem)
      rw [summary_same hSamples hLeft, summary_same hOthers hRight, summary_same hAppend hKind, mergeSchemas,
        Option.merge_some_some]
      congr 1
      by_cases hArray : kind = some .array
      · subst hArray
        rw [describe, describe, describe, merge_arrays, List.flatMap_append]
        exact congrArg (fun items => ({ type := some .array, items := items } : ContractSchema)) (ih _ _)
      by_cases hObject : kind = some .object
      · subst hObject
        exact merge_describe_object (fun _ => summary_isSome) ih hSamples hOthers
      have hPlain : ∀ zs, describe collation (summary collation room) zs kind = { type := kind } := by
        intro zs
        rw [describe.eq_def]
        split
        · exact absurd rfl hArray
        · exact absurd rfl hObject
        · rfl
      rw [hPlain, hPlain, hPlain, merge_typed hArray hObject]
    · rw [summary_mixed ha hb hDiffer]
      obtain ⟨left, hLeft⟩ := @summary_isSome collation (room + 1) samples hSamples
      obtain ⟨right, hRight⟩ := @summary_isSome collation (room + 1) others hOthers
      rw [hLeft, hRight, mergeSchemas, Option.merge_some_some]
      congr 1
      rcases kinds_cases samples hSamples with ⟨kind, hKind⟩ | ⟨a, ha, b, hb, hDiffer⟩
      · rcases kinds_cases others hOthers with ⟨other, hOther⟩ | ⟨a, ha, b, hb, hDiffer⟩
        · rw [summary_same hSamples hKind, Option.some.injEq] at hLeft
          rw [summary_same hOthers hOther, Option.some.injEq] at hRight
          apply merge_of_ne
          rw [← hLeft, ← hRight, describe_type, describe_type]
          -- one kind on both sides would leave no two samples that differ
          rintro rfl
          have hAll := List.forall_mem_append.mpr ⟨hKind, hOther⟩
          exact hDiffer ((hAll a ha).trans (hAll b hb).symm)
        · rw [summary_mixed ha hb hDiffer, Option.some.injEq] at hRight
          rw [← hRight]
          exact (merge_empty_summary hLeft).2
      · rw [summary_mixed ha hb hDiffer, Option.some.injEq] at hLeft
        rw [← hLeft]
        exact (merge_empty_summary hRight).1

end Merging

/-! ## Inferring a summary -/

def withinLimits : Nat → JsValue → Bool
  | 0, _ => false
  | room + 1, value => match value with
    | .undefined => false
    | .array elements => elements.all (withinLimits room)
    | .object fields => decide ((entriesOf fields).length ≤ MAX_PROPERTIES) &&
        (entriesOf fields).all fun entry => withinLimits room entry.2
    | _ => true

section Inferring

variable {collation : Collation}

/-- Values within the limits are described by their summary, and other values fail. -/
def Summarizes (infer : JsValue → Except JsError ContractSchema) (inner : List JsValue → Option ContractSchema)
    (within : JsValue → Bool) : Prop :=
  ∀ value schema, infer value = .ok schema ↔ within value = true ∧ inner [value] = some schema

variable {infer : JsValue → Except JsError ContractSchema} {inner : List JsValue → Option ContractSchema}
  {within : JsValue → Bool}

theorem Summarizes.foldlM (h : Summarizes infer inner within) (schema : ContractSchema)
    (hInner : ∀ zs ws, mergeSchemas (inner zs) (inner ws) = inner (zs ++ ws))
    (hSome : ∀ zs, zs ≠ [] → ∃ schema, inner zs = some schema) (rest before : List JsValue)
    {current : ContractSchema} (hBefore : inner before = some current) :
    rest.foldlM (fun current entry => do return merge current (← infer entry)) current = .ok schema ↔
      (∀ entry ∈ rest, within entry = true) ∧ inner (before ++ rest) = some schema := by
  induction rest generalizing before current with
  | nil =>
    rw [List.append_nil, hBefore]
    constructor
    · rintro ⟨⟩
      exact ⟨(fun _ hMem => nomatch hMem), rfl⟩
    · rintro ⟨_, ⟨⟩⟩
      rfl
  | cons entry rest ih =>
    obtain ⟨own, hOwn⟩ := hSome [entry] (List.cons_ne_nil _ _)
    have hJoin := hInner before [entry]
    rw [hBefore, hOwn] at hJoin
    rw [List.foldlM_cons, List.forall_mem_cons, bind_eq_ok_iff, List.append_cons]
    constructor
    · rintro ⟨merged, hMerged, hRest⟩
      obtain ⟨found, hFound, hPure⟩ := bind_eq_ok hMerged
      obtain ⟨hWithin, hSummary⟩ := (h entry found).mp hFound
      cases hPure
      rw [hOwn, Option.some.injEq] at hSummary
      rw [← hSummary, ih (before ++ [entry]) hJoin.symm] at hRest
      exact ⟨⟨hWithin, hRest.1⟩, hRest.2⟩
    · rintro ⟨⟨hWithin, hAll⟩, hSummary⟩
      refine ⟨merge current own, ?_, (ih (before ++ [entry]) hJoin.symm).mpr ⟨hAll, hSummary⟩⟩
      rw [(h entry own).mpr ⟨hWithin, hOwn⟩]
      rfl

theorem commonMembers_single (inner : List JsValue → Option ContractSchema) (value : JsValue) :
    commonMembers inner [value] = (membersOf value).map fun entry => (entry.1, (inner [entry.2]).getD {}) := by
  have hNames : commonNames [value] = keys (membersOf value) := by
    rw [commonNames, List.filter_eq_self]
    exact fun _ _ => rfl
  rw [commonMembers, hNames, keys, List.map_map]
  apply List.map_congr_left
  rintro ⟨name, entry⟩ hMem
  have hLookup : memberOf name value = some entry := lookup_of_mem (nodup_membersOf value) hMem
  simp [hLookup]

theorem inferMembers_eq_ok (collation : Collation) (h : Summarizes infer inner within) (entries : Fields)
    (hSome : ∀ zs, zs ≠ [] → ∃ schema, inner zs = some schema) (members : List (String × ContractSchema)) :
    (collation.sortEntries entries).mapM (fun entry => do return (entry.1, ← infer entry.2)) = .ok members ↔
      (∀ entry ∈ entries, within entry.2 = true) ∧
        members = collation.sortEntries (entries.map fun entry => (entry.1, (inner [entry.2]).getD {})) := by
  have hEach : ∀ entry ∈ collation.sortEntries entries, ∀ member : String × ContractSchema,
      (do return (entry.1, ← infer entry.2) : Except JsError (String × ContractSchema)) = .ok member ↔
        within entry.2 = true ∧ member = (entry.1, (inner [entry.2]).getD {}) := by
    intro entry _ member
    obtain ⟨own, hOwn⟩ := hSome [entry.2] (List.cons_ne_nil _ _)
    rw [bind_eq_ok_iff, hOwn, Option.getD_some]
    constructor
    · rintro ⟨found, hFound, hPure⟩
      obtain ⟨hWithin, hSummary⟩ := (h entry.2 found).mp hFound
      cases hPure
      rw [hOwn, Option.some.injEq] at hSummary
      exact ⟨hWithin, by rw [hSummary]⟩
    · rintro ⟨hWithin, rfl⟩
      exact ⟨own, (h entry.2 own).mpr ⟨hWithin, hOwn⟩, rfl⟩
  rw [mapM_eq_ok_iff hEach, sortEntries_map (fun value => (inner [value]).getD {})]
  simp only [(collation.sortEntries_perm entries).mem_iff]

theorem inferSchema_summarizes (room : Nat) :
    Summarizes (inferSchema collation room) (summary collation room) (withinLimits room) := by
  induction room with
  | zero =>
    intro value schema
    constructor
    · rintro ⟨⟩
    · rintro ⟨⟨⟩, _⟩
  | succ room ih =>
    intro value schema
    have hSingle : summary collation (room + 1) [value] =
        some (describe collation (summary collation room) [value] (kindOf value)) := by
      apply summary_same (List.cons_ne_nil _ _)
      intro other hMem
      rw [List.mem_singleton.mp hMem]
    rw [hSingle]
    cases value with
    | undefined => simp [inferSchema, withinLimits]
    | null => simp [inferSchema, withinLimits, kindOf, describe]
    | bool b => simp [inferSchema, withinLimits, kindOf, describe]
    | string s => simp [inferSchema, withinLimits, kindOf, describe]
    | number n => cases n <;> simp [inferSchema, withinLimits, kindOf, describe, integerOrNumber]
    | array elements =>
      have hItems : describe collation (summary collation room) [.array elements] (kindOf (.array elements)) =
          { type := some .array, items := summary collation room elements } := by
        simp [kindOf, describe, elementsOf]
      rw [hItems]
      cases elements with
      | nil => simp [inferSchema, withinLimits, summary]
      | cons first rest =>
        rw [inferSchema, bind_eq_ok_iff, withinLimits, List.all_cons, Bool.and_eq_true, List.all_eq_true]
        obtain ⟨start, hStart⟩ := @summary_isSome collation room [first] (List.cons_ne_nil _ _)
        have hRest := fun items => ih.foldlM items (summary_append room) (fun _ => summary_isSome) rest [first] hStart
        constructor
        · rintro ⟨found, hFound, h⟩
          obtain ⟨items, hRun, hPure⟩ := bind_eq_ok h
          obtain ⟨hWithin, hSummary⟩ := (ih first found).mp hFound
          cases hPure
          rw [hStart, Option.some.injEq] at hSummary
          obtain ⟨hAll, hList⟩ := (hRest items).mp (hSummary ▸ hRun)
          exact ⟨⟨hWithin, hAll⟩, by rw [← hList]; rfl⟩
        · rintro ⟨⟨hWithin, hAll⟩, hSummary⟩
          obtain ⟨items, hList⟩ := @summary_isSome collation room (first :: rest) (List.cons_ne_nil _ _)
          rw [hList, Option.some.injEq] at hSummary
          refine ⟨start, (ih first start).mpr ⟨hWithin, hStart⟩, ?_⟩
          rw [(hRest items).mpr ⟨hAll, hList⟩, ok_bind, hSummary]
          rfl
    | object fields =>
      have hMembers := inferMembers_eq_ok collation ih (entriesOf fields) (fun _ => summary_isSome)
      have hDescribe : describe collation (summary collation room) [.object fields] (kindOf (.object fields)) =
          objectSchema (collation.sortEntries ((entriesOf fields).map fun entry =>
            (entry.1, (summary collation room [entry.2]).getD {}))) := by
        rw [kindOf, describe, commonMembers_single]
        rfl
      have hPerm := collation.sortEntries_perm ((entriesOf fields).map fun entry =>
        (entry.1, (summary collation room [entry.2]).getD {}))
      have hKeys : (keys (collation.sortEntries ((entriesOf fields).map fun entry =>
          (entry.1, (summary collation room [entry.2]).getD {})))).Perm (keys (entriesOf fields)) := by
        have hSame := keys_map (fun value => (summary collation room [value]).getD {}) (entriesOf fields)
        rw [← hSame]
        exact hPerm.map Prod.fst
      have hNodup := hKeys.nodup_iff.mpr (fromEntries_nodup fields)
      rw [hDescribe, objectSchema, sortNames_congr hKeys, withinLimits, Bool.and_eq_true, decide_eq_true_eq,
        List.all_eq_true, inferSchema]
      constructor
      · intro h
        obtain ⟨_, hCount, h⟩ := bind_eq_ok h
        obtain ⟨members, hRun, hPure⟩ := bind_eq_ok h
        obtain ⟨hAll, rfl⟩ := (hMembers members).mp hRun
        cases hPure
        rw [failIf_eq_ok, Nat.not_lt] at hCount
        rw [fromEntries_eq_self hNodup]
        exact ⟨⟨hCount, hAll⟩, rfl⟩
      · rintro ⟨⟨hCount, hAll⟩, hSummary⟩
        rw [Option.some.injEq] at hSummary
        rw [failIf_of_not (Nat.not_lt.mpr hCount), ok_bind, (hMembers _).mpr ⟨hAll, rfl⟩, ok_bind,
          fromEntries_eq_self hNodup, hSummary]
        rfl

end Inferring

/-! ## What a summary accepts -/

section Accepting

variable {collation : Collation} {room : Nat} {samples others : List JsValue} {schema : ContractSchema}

theorem summary_ne_nil (h : summary collation room samples = some schema) : samples ≠ [] := by
  rintro rfl
  rw [summary_eq_none.mpr rfl] at h
  cases h

theorem summary_cases (h : summary collation (room + 1) samples = some schema) :
    schema = {} ∨ (∀ value ∈ samples, kindOf value = schema.type) ∧
      schema = describe collation (summary collation room) samples schema.type := by
  have hNe := summary_ne_nil h
  rcases kinds_cases samples hNe with ⟨kind, hKind⟩ | ⟨a, ha, b, hb, hDiffer⟩
  · rw [summary_same hNe hKind, Option.some.injEq] at h
    have hType : schema.type = kind := h ▸ describe_type _ kind
    rw [hType]
    exact .inr ⟨hKind, h.symm⟩
  · rw [summary_mixed ha hb hDiffer, Option.some.injEq] at h
    exact .inl h.symm

theorem describe_items {inner : List JsValue → Option ContractSchema} {kind : Option SchemaType}
    {items : ContractSchema} (h : (describe collation inner samples kind).items = some items) :
    inner (samples.flatMap elementsOf) = some items := by
  rw [describe.eq_def] at h
  split at h
  · exact h
  · cases h
  · cases h

theorem describe_properties {inner : List JsValue → Option ContractSchema} {kind : Option SchemaType}
    {members : List (String × ContractSchema)}
    (h : (describe collation inner samples kind).properties = some members) :
    kind = some .object ∧ members = arrange collation samples (commonMembers inner samples) := by
  rw [describe.eq_def] at h
  split at h
  · cases h
  · cases h
    exact ⟨rfl, rfl⟩
  · cases h

theorem describe_required {inner : List JsValue → Option ContractSchema} {kind : Option SchemaType}
    {names : List String} (h : (describe collation inner samples kind).required = some names) :
    kind = some .object ∧ names = sortNames (keys (arrange collation samples (commonMembers inner samples))) := by
  rw [describe.eq_def] at h
  split at h
  · cases h
  · cases h
    exact ⟨rfl, rfl⟩
  · cases h

theorem describe_enum (inner : List JsValue → Option ContractSchema) (kind : Option SchemaType) :
    (describe collation inner samples kind).enum = none := by
  rw [describe.eq_def]
  split <;> rfl

theorem keys_arrange_perm (collation : Collation) (samples : List JsValue) (inner : List JsValue → Option ContractSchema) :
    (keys (arrange collation samples (commonMembers inner samples))).Perm (commonNames samples) := by
  rw [← keys_commonMembers inner samples]
  exact (arrange_perm samples _).map Prod.fst

theorem mem_arrange {inner : List JsValue → Option ContractSchema} {name : String} {member : ContractSchema} :
    (name, member) ∈ arrange collation samples (commonMembers inner samples) ↔
      name ∈ commonNames samples ∧ member = (inner (samples.filterMap (memberOf name))).getD {} := by
  rw [(arrange_perm samples _).mem_iff, commonMembers, List.mem_map]
  constructor
  · rintro ⟨other, hOther, hPair⟩
    cases hPair
    exact ⟨hOther, rfl⟩
  · rintro ⟨hName, rfl⟩
    exact ⟨name, hName, rfl⟩

theorem mem_requiredNames {inner : List JsValue → Option ContractSchema} {kind : Option SchemaType} {name : String}
    (h : name ∈ (describe collation inner samples kind).requiredNames) : name ∈ commonNames samples := by
  rw [ContractSchema.requiredNames] at h
  rcases hRequired : (describe collation inner samples kind).required with _ | names
  · rw [hRequired] at h
    cases h
  · rw [hRequired, Option.getD_some, (describe_required hRequired).2, (sortNames_perm _).mem_iff] at h
    exact (keys_arrange_perm collation samples inner).mem_iff.mp h

theorem mem_declared {inner : List JsValue → Option ContractSchema} {kind : Option SchemaType} {name : String}
    {member : ContractSchema} (h : (name, member) ∈ (describe collation inner samples kind).declared) :
    name ∈ commonNames samples ∧ member = (inner (samples.filterMap (memberOf name))).getD {} := by
  rw [ContractSchema.declared] at h
  rcases hProperties : (describe collation inner samples kind).properties with _ | members
  · rw [hProperties] at h
    cases h
  · rw [hProperties, Option.getD_some, (describe_properties hProperties).2] at h
    exact mem_arrange.mp h

theorem withinLimits_element {value entry : JsValue} (h : withinLimits (room + 1) value = true)
    (hEntry : entry ∈ elementsOf value) : withinLimits room entry = true := by
  cases value
  case array elements => exact List.all_eq_true.mp h entry hEntry
  all_goals cases hEntry

theorem withinLimits_member {value entry : JsValue} {name : String} (h : withinLimits (room + 1) value = true)
    (hEntry : memberOf name value = some entry) : withinLimits room entry = true := by
  cases value
  case object fields =>
    rw [withinLimits, Bool.and_eq_true, List.all_eq_true] at h
    exact h.2 (name, entry) (mem_of_lookup hEntry)
  all_goals cases hEntry

theorem admits_of_kindOf {value : JsValue} {type : SchemaType} (h : kindOf value = some type) :
    type.admits value = true := by
  cases value with
  | number n => cases n <;> cases h <;> rfl
  | undefined => cases h
  | _ => cases h; rfl

theorem summary_accepts (h : summary collation room samples = some schema) {value : JsValue} (hMem : value ∈ samples)
    (hWithin : withinLimits room value = true) : schema.accepts false value = true := by
  induction room generalizing samples schema value with
  | zero => cases hWithin
  | succ room ih =>
    rw [ContractSchema.accepts_iff]
    rcases summary_cases h with rfl | ⟨hKind, hSchema⟩
    · exact ⟨nofun, nofun, nofun, nofun, nofun, nofun⟩
    · constructor
      · intro type hType
        exact admits_of_kindOf ((hKind value hMem).trans hType)
      · intro entries hEnum
        rw [hSchema, describe_enum] at hEnum
        cases hEnum
      · rintro fields rfl name hName
        rw [hSchema] at hName
        exact (mem_commonNames (List.ne_nil_of_mem hMem)).mp (mem_requiredNames hName) _ hMem
      · rintro ⟨⟩
      · rintro fields rfl name member hMember entry hEntry
        rw [hSchema] at hMember
        obtain ⟨hName, rfl⟩ := mem_declared hMember
        have hNe := filterMap_memberOf_ne_nil (List.ne_nil_of_mem hMem) hName
        obtain ⟨inner, hInner⟩ := @summary_isSome collation room _ hNe
        rw [hInner, Option.getD_some]
        exact ih hInner (List.mem_filterMap.mpr ⟨_, hMem, hEntry⟩) (withinLimits_member hWithin hEntry)
      · rintro elements rfl items hItems entry hEntry
        rw [hSchema] at hItems
        refine ih (describe_items hItems) (List.mem_flatMap.mpr ⟨_, hMem, hEntry⟩) ?_
        exact withinLimits_element hWithin hEntry

/-! ## The order of the samples -/

theorem mem_commonNames_perm (h : samples.Perm others) (name : String) :
    name ∈ commonNames samples ↔ name ∈ commonNames others := by
  by_cases hNe : samples = []
  · subst hNe
    rw [h.nil_eq]
  · have hOthers : others ≠ [] := by
      rintro rfl
      exact hNe h.eq_nil
    rw [mem_commonNames hNe, mem_commonNames hOthers]
    simp only [h.mem_iff]

theorem arrange_congr (h : samples.Perm others) {inner : List JsValue → Option ContractSchema}
    (hInner : ∀ zs ws, zs.Perm ws → inner zs = inner ws) :
    arrange collation samples (commonMembers inner samples) = arrange collation others (commonMembers inner others) := by
  rw [arrange.eq_def, arrange.eq_def]
  have hSingle : ∀ value, samples = [value] ↔ others = [value] := by
    intro value
    constructor
    · rintro rfl
      exact (List.singleton_perm.mp h).symm
    · rintro rfl
      exact List.perm_singleton.mp h
  have hLookup : ∀ name, (commonMembers inner samples).lookup name = (commonMembers inner others).lookup name := by
    intro name
    rw [lookup_commonMembers, lookup_commonMembers, hInner _ _ (h.filterMap (memberOf name))]
    simp only [mem_commonNames_perm h]
  split
  · rename_i value
    obtain rfl := (hSingle value).mp rfl
    rfl
  · rename_i hMany
    split
    · rename_i value
      exact absurd ((hSingle value).mpr rfl) (hMany value)
    · exact sortByName_congr (nodup_commonMembers inner samples) (nodup_commonMembers inner others) hLookup

theorem summary_perm (h : samples.Perm others) : summary collation room samples = summary collation room others := by
  induction room generalizing samples others with
  | zero =>
    cases samples with
    | nil => rw [h.nil_eq]
    | cons first rest =>
      cases others with
      | nil => exact absurd h.eq_nil (List.cons_ne_nil _ _)
      | cons => rfl
  | succ room ih =>
    by_cases hNe : samples = []
    · subst hNe
      rw [h.nil_eq]
    have hOthers : others ≠ [] := by
      rintro rfl
      exact hNe h.eq_nil
    rcases kinds_cases samples hNe with ⟨kind, hKind⟩ | ⟨a, ha, b, hb, hDiffer⟩
    · have hOther : ∀ value ∈ others, kindOf value = kind := fun value hMem => hKind value (h.mem_iff.mpr hMem)
      rw [summary_same hNe hKind, summary_same hOthers hOther]
      congr 1
      rw [describe.eq_def, describe.eq_def]
      split
      · rw [ih (h.flatMap_right elementsOf)]
      · rw [arrange_congr h fun _ _ => ih]
      · rfl
    · rw [summary_mixed ha hb hDiffer, summary_mixed (h.mem_iff.mp ha) (h.mem_iff.mp hb) hDiffer]

/-! ## Summaries that the validator lets through -/

def namesAccepted : Nat → JsValue → Bool
  | 0, _ => true
  | room + 1, value => match value with
    | .array elements => elements.all (namesAccepted room)
    | .object fields => (entriesOf fields).all fun entry => isFieldName entry.1 && namesAccepted room entry.2
    | _ => true

/-- Samples that are of one kind at every place that they have in common. -/
def uniform : Nat → List JsValue → Bool
  | 0, samples => samples.isEmpty
  | room + 1, samples => decide (∀ a ∈ samples, ∀ b ∈ samples, kindOf a = kindOf b) &&
      uniform room (samples.flatMap elementsOf) &&
      (commonNames samples).all fun name => uniform room (samples.filterMap (memberOf name))

theorem uniform_nil (room : Nat) : uniform room [] = true := by
  induction room with
  | zero => rfl
  | succ room ih =>
    rw [uniform, List.flatMap_nil, ih]
    rfl

theorem summary_proper (h : summary collation room samples = some schema) : schema.Proper := by
  induction room generalizing samples schema with
  | zero =>
    rw [summary_zero (summary_ne_nil h), Option.some.injEq] at h
    subst h
    exact ⟨_, nofun, nofun, nofun⟩
  | succ room ih =>
    rcases summary_cases h with rfl | ⟨_, hSchema⟩
    · exact ⟨_, nofun, nofun, nofun⟩
    · constructor
      · intro members hMembers
        rw [hSchema] at hMembers
        rw [(describe_properties hMembers).2]
        exact nodup_arrange samples samples
      · rintro members hMembers ⟨name, member⟩ hMember
        rw [hSchema] at hMembers
        rw [(describe_properties hMembers).2] at hMember
        obtain ⟨hName, rfl⟩ := mem_arrange.mp hMember
        obtain ⟨inner, hInner⟩ := @summary_isSome collation room _ (filterMap_memberOf_ne_nil (summary_ne_nil h) hName)
        rw [hInner]
        exact ih hInner
      · intro items hItems
        rw [hSchema] at hItems
        exact ih (describe_items hItems)

theorem namesAccepted_element {value entry : JsValue} (h : namesAccepted (room + 1) value = true)
    (hEntry : entry ∈ elementsOf value) : namesAccepted room entry = true := by
  cases value
  case array elements => exact List.all_eq_true.mp h entry hEntry
  all_goals cases hEntry

theorem namesAccepted_member {value entry : JsValue} {name : String} (h : namesAccepted (room + 1) value = true)
    (hEntry : memberOf name value = some entry) : isFieldName name = true ∧ namesAccepted room entry = true := by
  cases value
  case object fields =>
    have hBoth := List.all_eq_true.mp h (name, entry) (mem_of_lookup hEntry)
    exact Bool.and_eq_true_iff.mp hBoth
  all_goals cases hEntry

theorem length_membersOf {value : JsValue} (h : withinLimits (room + 1) value = true) :
    (membersOf value).length ≤ MAX_PROPERTIES := by
  cases value
  case object fields =>
    rw [withinLimits, Bool.and_eq_true, decide_eq_true_eq] at h
    exact h.1
  all_goals exact Nat.zero_le _

/-- The samples of one place keep the limits, and their names are accepted. -/
def Bounded (room : Nat) (samples : List JsValue) : Prop :=
  ∀ value ∈ samples, withinLimits room value = true ∧ namesAccepted room value = true

theorem Bounded.elements (h : Bounded (room + 1) samples) : Bounded room (samples.flatMap elementsOf) := by
  intro entry hMem
  obtain ⟨value, hValue, hEntry⟩ := List.mem_flatMap.mp hMem
  exact ⟨withinLimits_element (h value hValue).1 hEntry, namesAccepted_element (h value hValue).2 hEntry⟩

theorem Bounded.members (h : Bounded (room + 1) samples) (name : String) :
    Bounded room (samples.filterMap (memberOf name)) := by
  intro entry hMem
  obtain ⟨value, hValue, hEntry⟩ := List.mem_filterMap.mp hMem
  exact ⟨withinLimits_member (h value hValue).1 hEntry, (namesAccepted_member (h value hValue).2 hEntry).2⟩

theorem Bounded.names (h : Bounded (room + 1) samples) (hNe : samples ≠ []) :
    (commonNames samples).length ≤ MAX_PROPERTIES ∧ ∀ name ∈ commonNames samples, isFieldName name = true := by
  obtain ⟨first, hFirst⟩ := List.exists_mem_of_ne_nil samples hNe
  have hSubset : commonNames samples ⊆ keys (membersOf first) := by
    intro name hName
    exact (mem_commonNames hNe).mp hName first hFirst
  constructor
  · calc (commonNames samples).length
        ≤ (keys (membersOf first)).length := (List.subperm_of_subset (nodup_commonNames samples) hSubset).length_le
      _ = (membersOf first).length := List.length_map _
      _ ≤ MAX_PROPERTIES := length_membersOf (h first hFirst).1
  · intro name hName
    obtain ⟨entry, hEntry⟩ := Option.isSome_iff_exists.mp (memberOf_isSome.mpr (hSubset hName))
    exact (namesAccepted_member (h first hFirst).2 hEntry).1

theorem describe_shape (h : Bounded (room + 1) samples) (hNe : samples ≠ [])
    {inner : List JsValue → Option ContractSchema} {type : SchemaType} :
    (describe collation inner samples (some type)).Shape := by
  have hPerm := keys_arrange_perm collation samples inner
  obtain ⟨hLength, hNames⟩ := h.names hNe
  constructor
  · rintro ⟨hType, _⟩
    rw [describe_type] at hType
    cases hType
  · intro entries hEnum
    rw [describe_enum] at hEnum
    cases hEnum
  · intro names hRequired
    obtain ⟨hKind, rfl⟩ := describe_required hRequired
    refine ⟨(describe_type _ _).trans hKind, ?_, ?_⟩
    · exact (sortNames_perm _).nodup_iff.mpr (hPerm.nodup_iff.mpr (nodup_commonNames samples))
    · intro name hName
      exact hNames name (hPerm.mem_iff.mp ((sortNames_perm _).mem_iff.mp hName))
  · intro members hProperties
    obtain ⟨hKind, rfl⟩ := describe_properties hProperties
    refine ⟨(describe_type _ _).trans hKind, ?_, ?_⟩
    · calc (arrange collation samples (commonMembers inner samples)).length
          = (keys (arrange collation samples (commonMembers inner samples))).length := (List.length_map _).symm
        _ = (commonNames samples).length := hPerm.length_eq
        _ ≤ MAX_PROPERTIES := hLength
    · intro name hName
      exact hNames name (hPerm.mem_iff.mp hName)
  · intro hItems
    obtain ⟨items, hSome⟩ := Option.ne_none_iff_exists'.mp hItems
    rw [describe.eq_def] at hSome ⊢
    split at hSome
    · rfl
    · cases hSome
    · cases hSome

theorem kindOf_of_element {value entry : JsValue} (h : entry ∈ elementsOf value) : kindOf value = some .array := by
  cases value
  case array => rfl
  all_goals cases h

theorem kindOf_of_member {value : JsValue} {name : String} (h : name ∈ keys (membersOf value)) :
    kindOf value = some .object := by
  cases value
  case object => rfl
  all_goals cases h

theorem acceptableItems_iff (collation : Collation) {type : SchemaType}
    (ih : ∀ {zs : List JsValue} {schema}, summary collation room zs = some schema → Bounded room zs →
      (schema.Acceptable room ↔ uniform room zs = true))
    (hBounded : Bounded (room + 1) samples) (hKind : ∀ value ∈ samples, kindOf value = some type) :
    (∀ items, (describe collation (summary collation room) samples (some type)).items = some items →
        items.Acceptable room) ↔ uniform room (samples.flatMap elementsOf) = true := by
  constructor
  · intro hItems
    by_cases hNil : samples.flatMap elementsOf = []
    · rw [hNil]
      exact uniform_nil room
    · obtain ⟨entry, hEntry⟩ := List.exists_mem_of_ne_nil _ hNil
      obtain ⟨value, hValue, hElement⟩ := List.mem_flatMap.mp hEntry
      have hType := (hKind value hValue).symm.trans (kindOf_of_element hElement)
      cases hType
      obtain ⟨items, hSome⟩ := @summary_isSome collation room _ hNil
      exact (ih hSome hBounded.elements).mp (hItems items hSome)
  · intro hUniform items hItems
    exact (ih (describe_items hItems) hBounded.elements).mpr hUniform

theorem acceptableMembers_iff (collation : Collation) {type : SchemaType} (hNe : samples ≠ [])
    (ih : ∀ {zs : List JsValue} {schema}, summary collation room zs = some schema → Bounded room zs →
      (schema.Acceptable room ↔ uniform room zs = true))
    (hBounded : Bounded (room + 1) samples) (hKind : ∀ value ∈ samples, kindOf value = some type) :
    (∀ members, (describe collation (summary collation room) samples (some type)).properties = some members →
        ∀ member ∈ members, member.2.Acceptable room) ↔
      ∀ name ∈ commonNames samples, uniform room (samples.filterMap (memberOf name)) = true := by
  have hEach : ∀ name ∈ commonNames samples,
      (((summary collation room (samples.filterMap (memberOf name))).getD {}).Acceptable room ↔
        uniform room (samples.filterMap (memberOf name)) = true) := by
    intro name hName
    obtain ⟨inner, hInner⟩ := @summary_isSome collation room _ (filterMap_memberOf_ne_nil hNe hName)
    rw [hInner, Option.getD_some]
    exact ih hInner (hBounded.members name)
  constructor
  · intro hMembers name hName
    obtain ⟨first, hFirst⟩ := List.exists_mem_of_ne_nil samples hNe
    have hType := (hKind first hFirst).symm.trans (kindOf_of_member ((mem_commonNames hNe).mp hName first hFirst))
    cases hType
    exact (hEach name hName).mp (hMembers _ rfl (name, _) (mem_arrange.mpr ⟨hName, rfl⟩))
  · rintro hUniform members hProperties ⟨name, member⟩ hMember
    rw [(describe_properties hProperties).2] at hMember
    obtain ⟨hName, rfl⟩ := mem_arrange.mp hMember
    exact (hEach name hName).mpr (hUniform name hName)

theorem acceptable_iff_uniform (h : summary collation room samples = some schema) (hBounded : Bounded room samples) :
    schema.Acceptable room ↔ uniform room samples = true := by
  induction room generalizing samples schema with
  | zero =>
    obtain ⟨value, hMem⟩ := List.exists_mem_of_ne_nil samples (summary_ne_nil h)
    cases (hBounded value hMem).1
  | succ room ih =>
    have hNe := summary_ne_nil h
    rw [uniform, Bool.and_eq_true, Bool.and_eq_true, decide_eq_true_eq, List.all_eq_true]
    rcases kinds_cases samples hNe with ⟨kind, hKind⟩ | ⟨a, ha, b, hb, hDiffer⟩
    · rw [summary_same hNe hKind, Option.some.injEq] at h
      subst h
      rcases kind with _ | type
      · obtain ⟨value, hMem⟩ := List.exists_mem_of_ne_nil samples hNe
        have hWithin := (hBounded value hMem).1
        cases value
        case undefined => cases hWithin
        all_goals cases hKind _ hMem
      · have hItems := acceptableItems_iff collation ih hBounded hKind
        have hMembers := acceptableMembers_iff collation hNe ih hBounded hKind
        constructor
        · rintro ⟨_, hAllMembers, hAllItems⟩
          refine ⟨⟨?_, hItems.mp hAllItems⟩, hMembers.mp hAllMembers⟩
          exact fun a ha b hb => (hKind a ha).trans (hKind b hb).symm
        · rintro ⟨⟨_, hAllItems⟩, hAllMembers⟩
          exact ⟨describe_shape hBounded hNe, hMembers.mpr hAllMembers, hItems.mpr hAllItems⟩
    · rw [summary_mixed ha hb hDiffer, Option.some.injEq] at h
      subst h
      constructor
      · intro hAcceptable
        exact absurd ⟨rfl, rfl⟩ hAcceptable.1.constrained
      · rintro ⟨⟨hSame, _⟩, _⟩
        exact absurd (hSame a ha b hb) hDiffer

end Accepting

end GhostApi.Contracts
