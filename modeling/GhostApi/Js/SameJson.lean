import GhostApi.Js.Canonical
import GhostApi.Js.Induction
import GhostApi.Js.Objects
import GhostApi.Lib.Reordering

/-!
# Values equal up to the order of members

Two proper values have one canonical text exactly if they are equal up to the
order in which their objects list their members.
-/

namespace Js.Json

open Reordering

mutual
inductive Same : Json → Json → Prop
  | refl (value : Json) : Same value value
  | array {items others : List Json} (h : List.Forall₂ Same items others) : Same (.array items) (.array others)
  | object {fields others : List (String × Json)} (h : Rearranged SameField fields others) : Same (.object fields) (.object others)

inductive SameField : String × Json → String × Json → Prop
  | intro (key : String) {value other : Json} (h : Same value other) : SameField (key, value) (key, other)
end

/-- A value that JSON.parse may return. -/
inductive Proper : Json → Prop
  | null : Proper .null
  | bool (b : Bool) : Proper (.bool b)
  | number (z : Int) : Proper (.number z)
  | fraction {text : String} (h : isFraction text = true) : Proper (.fraction text)
  | string (s : String) : Proper (.string s)
  | array {items : List Json} (h : ∀ item ∈ items, Proper item) : Proper (.array items)
  | object {fields : List (String × Json)} (distinct : (keys fields).Nodup) (h : ∀ field ∈ fields, Proper field.2) :
      Proper (.object fields)

variable {value other : Json} {items : List Json} {fields others : List (String × Json)}

theorem plainItems_iff : PlainItems items ↔ ∀ item ∈ items, item.Plain := by
  induction items with
  | nil => simp [PlainItems]
  | cons item rest ih => rw [PlainItems, ih, List.forall_mem_cons]

theorem Proper.plain (h : value.Proper) : value.Plain := by
  induction value using Json.induction with
  | null | bool | number | string => trivial
  | fraction text =>
    cases h with
    | fraction h => exact h
  | array items ih =>
    cases h with
    | array hItems =>
      rw [Plain, plainItems_iff]
      exact fun item hItem => ih item hItem (hItems item hItem)
  | object fields ih =>
    cases h with
    | object _ hFields =>
      rw [Plain, plainFields_iff]
      exact fun field hField => ih field hField (hFields field hField)

theorem Proper.member {key : String} (h : (Json.object fields).Proper) (hMember : fields.lookup key = some value) :
    value.Proper := by
  cases h with
  | object _ hFields => exact hFields _ (mem_of_lookup hMember)

theorem orderedItems_eq (items : List Json) : orderedItems items = items.map ordered := by
  induction items with
  | nil => rfl
  | cons item rest ih => rw [orderedItems, ih, List.map_cons]

theorem ordered_array : ordered (.array items) = .array (items.map ordered) := by
  rw [ordered, orderedItems_eq]

def orderField (field : String × Json) : String × Json := (field.1, ordered field.2)

theorem ordered_object : ordered (.object fields) = .object (sortByName (fields.map orderField)) := by
  rw [ordered, orderedFields_eq]
  rfl

theorem ordered_object_of_perm (hNodup : (keys fields).Nodup) (h : (fields.map orderField).Perm (others.map orderField)) :
    ordered (.object fields) = ordered (.object others) := by
  have hKeys : (keys (fields.map orderField)).Nodup := by
    rw [show keys (fields.map orderField) = keys fields from keys_map ordered fields]
    exact hNodup
  have hPerm := (sortByName_perm (fields.map orderField)).trans (h.trans (sortByName_perm (others.map orderField)).symm)
  rw [ordered_object, ordered_object,
    eq_of_pairwise_keyLe (keys_sortByName_nodup hKeys) (pairwise_sortByName _) (pairwise_sortByName _) hPerm]

theorem same_of_items {others : List Json} (ih : ∀ item ∈ items, ∀ {other : Json}, item.ordered = other.ordered → Same item other)
    (h : items.map ordered = others.map ordered) : List.Forall₂ Same items others :=
  forall₂_imp (forall₂_iff_map.mpr h) fun item hItem _ _ hSame => ih item hItem hSame

theorem same_of_fields (ih : ∀ field ∈ fields, ∀ {other : Json}, field.2.ordered = other.ordered → Same field.2 other)
    (h : (fields.map orderField).Perm (others.map orderField)) : Rearranged SameField fields others := by
  refine (rearranged_of_map h).imp fun field hField other _ hOrdered => ?_
  obtain ⟨key, member⟩ := field
  obtain ⟨name, rest⟩ := other
  obtain ⟨rfl, hSame⟩ := Prod.mk.inj hOrdered
  exact .intro key (ih _ hField hSame)

theorem same_of_ordered (h : value.ordered = other.ordered) : Same value other := by
  induction value using Json.induction generalizing other with
  | array items ih =>
    cases other with
    | array others =>
      rw [ordered_array, ordered_array, Json.array.injEq] at h
      exact .array (same_of_items (fun item hItem _ => ih item hItem) h)
    | _ => simp [ordered] at h
  | object fields ih =>
    cases other with
    | object others => exact .object (same_of_fields (fun field hField _ => ih field hField) (perm_of_ordered h))
    | _ => simp [ordered] at h
  | null | bool | number | fraction | string =>
    cases other with
    | array | object => simp [ordered] at h
    | _ =>
      unfold ordered at h
      cases h <;> exact .refl _

theorem ordered_of_same (hValue : value.Proper) (h : Same value other) : value.ordered = other.ordered := by
  induction value using Json.induction generalizing other with
  | array items ih =>
    cases h with
    | refl => rfl
    | array hItems =>
      cases hValue with
      | array hProper =>
        rw [ordered_array, ordered_array]
        have hOrdered := forall₂_imp hItems fun item hItem _ _ hSame => ih item hItem (hProper item hItem) hSame
        rw [forall₂_iff_map.mp hOrdered]
  | object fields ih =>
    cases h with
    | refl => rfl
    | @object _ others hFields =>
      cases hValue with
      | object hNodup hProper =>
        obtain ⟨middle, hPerm, hRelated⟩ := rearranged_iff.mp hFields
        refine ordered_object_of_perm hNodup ((hPerm.map orderField).trans (List.Perm.of_eq ?_))
        have hOrdered : List.Forall₂ (fun field other => orderField field = orderField other) middle others := by
          refine forall₂_imp hRelated fun field hField _ _ hSame => ?_
          cases hSame with
          | intro key hSame =>
            have hMem := hPerm.mem_iff.mpr hField
            rw [orderField, orderField, ih _ hMem (hProper _ hMem) hSame]
        exact forall₂_iff_map.mp hOrdered
  | null | bool | number | fraction | string =>
    cases h
    rfl

theorem canonical_eq_iff (hValue : value.Proper) (hOther : other.Proper) :
    value.canonical = other.canonical ↔ Same value other := by
  constructor
  · exact fun h => same_of_ordered (canonical_injective hValue.plain hOther.plain h)
  · intro h
    rw [canonical_eq, canonical_eq, ordered_of_same hValue h]

end Js.Json
