import GhostApi.Evidence.Stable
import GhostApi.Lib.StableSort

/-!
# The stable text and the order of keys

Keys that localeCompare does not separate keep the order in which the object
lists them. The stable text therefore forgets the order of the members exactly
when such keys come in the same order wherever two objects correspond.
-/

namespace GhostApi.Evidence

open Js Printed Reordering StableSort
open Policy (JsString)

/-- The keys of an object that the collation does not separate from a key. -/
def tiesOf (collation : Collation) (key : JsString) (fields : Members) : List JsString :=
  (fields.map Prod.fst).filter (tied collation key)

/-- Wherever both values have an object, its keys that are not separated come in the same order. -/
def TiesInOrder (collation : Collation) (value other : Value) : Prop :=
  ∀ place fields others, At (.object fields) place value → At (.object others) place other →
    ∀ key, tiesOf collation key fields = tiesOf collation key others

variable {collation : Collation} {value other : Value}

/-- The members of an object beside the trees of their values. -/
def treesOf (collation : Collation) (fields : Members) : List (JsString × JsonTree JsString) :=
  fields.map fun field => (field.1, stableTree collation field.2)

theorem treesOf_keys (fields : Members) : (treesOf collation fields).map Prod.fst = fields.map Prod.fst := by
  rw [treesOf, List.map_map]
  rfl

theorem keys_filter {α : Type} (key : JsString) (members : List (JsString × α)) :
    (members.filter fun member => tied collation key member.1).map Prod.fst = (members.map Prod.fst).filter (tied collation key) := by
  rw [List.filter_map]
  rfl

theorem sortMembers_eq_iff (hOrder : Compares collation) (members others : List (JsString × JsonTree JsString)) :
    sortMembers collation members = sortMembers collation others ↔
      ∀ key, (members.filter fun member => tied collation key member.1) = others.filter fun member => tied collation key member.1 := by
  have hSorted := (hOrder.map (Prod.fst : JsString × JsonTree JsString → JsString)).mergeSort_eq_iff members others
  constructor
  · exact fun hSame key => hSorted.mp hSame (key, .text key)
  · exact fun hTies => hSorted.mpr fun x => hTies x.1

/-! ## Equal trees have their ties in order -/

theorem ties_of_trees (hOrder : Compares collation) {fields others : Members}
    (h : sortMembers collation (treesOf collation fields) = sortMembers collation (treesOf collation others)) (key : JsString) :
    tiesOf collation key fields = tiesOf collation key others := by
  have hFilter := congrArg (List.map Prod.fst) ((sortMembers_eq_iff hOrder _ _).mp h key)
  rwa [keys_filter, keys_filter, treesOf_keys, treesOf_keys] at hFilter

theorem treesOf_perm {fields others : Members}
    (h : sortMembers collation (treesOf collation fields) = sortMembers collation (treesOf collation others)) :
    (treesOf collation fields).Perm (treesOf collation others) :=
  (List.mergeSort_perm _ _).symm.trans ((List.Perm.of_eq h).trans (List.mergeSort_perm _ _))

theorem object_trees {fields others : Members} (hFields : ∀ field ∈ fields, field.2.Parsed) (hOthers : ∀ field ∈ others, field.2.Parsed)
    (h : stableTree collation (.object fields) = stableTree collation (.object others)) :
    sortMembers collation (treesOf collation fields) = sortMembers collation (treesOf collation others) := by
  rw [stableTree_object hFields, stableTree_object hOthers, JsonTree.object.injEq] at h
  exact h

/-- By induction on the place. -/
theorem tiesInOrder_of_tree (hOrder : Compares collation) (hValue : value.Parsed) (hOther : other.Parsed)
    (h : stableTree collation value = stableTree collation other) : TiesInOrder collation value other := by
  intro place fields others hAt hAt' key
  induction place generalizing value other with
  | nil =>
    rw [show value = .object fields from hAt] at hValue h
    rw [show other = .object others from hAt'] at hOther h
    cases hValue with
    | object _ hFields =>
      cases hOther with
      | object _ hOthers => exact ties_of_trees hOrder (object_trees hFields hOthers h) key
  | cons step place ih =>
    cases step with
    | index i =>
      obtain ⟨items, item, rfl, hItem, hAt⟩ := hAt
      obtain ⟨items', item', rfl, hItem', hAt'⟩ := hAt'
      cases hValue with
      | array hItems =>
        cases hOther with
        | array hItems' =>
          rw [stableTree_array, stableTree_array, JsonTree.array.injEq] at h
          have hTrees := congrArg (fun trees => trees[i]?) h
          simp only [List.getElem?_map, hItem, hItem', Option.map_some, Option.some.injEq] at hTrees
          exact ih (hItems _ (List.mem_of_getElem? hItem)) (hItems' _ (List.mem_of_getElem? hItem')) hTrees hAt hAt'
    | key name =>
      obtain ⟨members, item, rfl, hItem, hAt⟩ := hAt
      obtain ⟨members', item', rfl, hItem', hAt'⟩ := hAt'
      cases hValue with
      | object _ hMembers =>
        cases hOther with
        | object distinct hMembers' =>
          have hPerm := treesOf_perm (object_trees hMembers hMembers' h)
          have hMine : (name, stableTree collation item) ∈ treesOf collation members' :=
            hPerm.mem_iff.mp (List.mem_map_of_mem hItem)
          have hYours : (name, stableTree collation item') ∈ treesOf collation members' := List.mem_map_of_mem hItem'
          rw [← @treesOf_keys collation members'] at distinct
          have hTrees := congrArg Prod.snd (List.inj_on_of_nodup_map distinct hMine hYours rfl)
          exact ih (hMembers _ hItem) (hMembers' _ hItem') hTrees hAt hAt'

/-! ## The same values with their ties in order have equal trees -/

theorem TiesInOrder.item {items others : List Value} (h : TiesInOrder collation (.array items) (.array others)) {i : Nat}
    {item other : Value} (hItem : items[i]? = some item) (hOther : others[i]? = some other) : TiesInOrder collation item other :=
  fun place fields members hAt hAt' =>
    h (.index i :: place) fields members ((at_item hItem).mpr hAt) ((at_item hOther).mpr hAt')

theorem TiesInOrder.member {fields others : Members} (h : TiesInOrder collation (.object fields) (.object others)) {key : JsString}
    {item other : Value} (hItem : (key, item) ∈ fields) (hOther : (key, other) ∈ others) : TiesInOrder collation item other :=
  fun place members members' hAt hAt' =>
    h (.key key :: place) members members' ⟨fields, item, rfl, hItem, hAt⟩ ⟨others, other, rfl, hOther, hAt'⟩

/-- By induction on the first value. -/
theorem tree_of_same (hOrder : Compares collation) (hValue : value.Parsed) (hOther : other.Parsed) (h : Same value other)
    (hTies : TiesInOrder collation value other) : stableTree collation value = stableTree collation other := by
  induction value using Value.induction generalizing other with
  | undefined | null | bool | number | infinity | string =>
    cases h
    rfl
  | array items ih =>
    cases hValue with
    | array hItems =>
      cases h with
      | refl => rfl
      | array hSame =>
        rename_i others
        cases hOther with
        | array hOthers =>
          rw [stableTree_array, stableTree_array]
          congr 1
          refine List.ext_getElem (by simpa using hSame.length_eq) fun i hi hi' => ?_
          rw [List.length_map] at hi hi'
          rw [List.getElem_map, List.getElem_map]
          have hItem := List.getElem?_eq_getElem hi
          have hOther := List.getElem?_eq_getElem hi'
          exact ih _ (List.getElem_mem hi) (hItems _ (List.getElem_mem hi)) (hOthers _ (List.getElem_mem hi'))
            (hSame.get hi hi') (hTies.item hItem hOther)
  | object fields ih =>
    cases hValue with
    | object distinct hFields =>
      cases h with
      | refl => rfl
      | object hSame =>
        rename_i others
        cases hOther with
        | object distinct' hOthers =>
          have hTrees : Rearranged (fun field other => (field.1, stableTree collation field.2) = (other.1, stableTree collation other.2))
              fields others := by
            refine hSame.imp fun field hField other hOther hMember => ?_
            cases hMember with
            | intro key hMember =>
              rw [ih _ hField (hFields _ hField) (hOthers _ hOther) hMember (hTies.member hField hOther)]
          obtain ⟨middle, hMiddle, hRelated⟩ := rearranged_iff.mp hTrees
          have hPerm : (treesOf collation fields).Perm (treesOf collation others) := by
            rw [treesOf, treesOf, ← forall₂_iff_map.mp hRelated]
            exact hMiddle.map _
          rw [stableTree_object hFields, stableTree_object hOthers]
          congr 1
          refine (sortMembers_eq_iff hOrder (treesOf collation fields) (treesOf collation others)).mpr fun key => ?_
          refine eq_of_map_fst_eq (hPerm.filter _) ?_ ?_
          · rw [keys_filter, treesOf_keys]
            exact distinct.filter _
          · rw [keys_filter, keys_filter, treesOf_keys, treesOf_keys]
            exact hTies [] fields others rfl rfl key

theorem stableTree_eq_iff_same (hOrder : Compares collation) (hValue : value.Parsed) (hOther : other.Parsed)
    (hInfinities : SameInfinities value other) :
    stableTree collation value = stableTree collation other ↔ Same value other ∧ TiesInOrder collation value other := by
  constructor
  · exact fun h => ⟨same_of_tree hValue hOther h hInfinities, tiesInOrder_of_tree hOrder hValue hOther h⟩
  · exact fun h => tree_of_same hOrder hValue hOther h.1 h.2

end GhostApi.Evidence
