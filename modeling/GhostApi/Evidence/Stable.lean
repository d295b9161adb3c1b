import GhostApi.Evidence.Value
import GhostApi.Lib.Reordering

/-!
# The stable text and the value

Two parsed values with the same stable text are equal up to the order of their
members, except that a number which is too large for a double is printed like
null.
-/

namespace GhostApi.Evidence

open Js Printed Reordering
open Policy (JsString)

/-- What JSON.parse returns. -/
inductive Value.Parsed : Value → Prop
  | null : Parsed .null
  | bool (b : Bool) : Parsed (.bool b)
  | integer (z : Int) : Parsed (.number (.integer z))
  | fraction {text : String} (h : Json.isFraction text = true) : Parsed (.number (.fraction text))
  | infinity (negative : Bool) : Parsed (.infinity negative)
  | string (s : JsString) : Parsed (.string s)
  | array {items : List Value} (h : ∀ item ∈ items, Parsed item) : Parsed (.array items)
  | object {fields : Members} (distinct : (fields.map Prod.fst).Nodup) (h : ∀ field ∈ fields, Parsed field.2) : Parsed (.object fields)

mutual
/-- Equal up to the order in which objects list their members. -/
inductive Same : Value → Value → Prop
  | refl (value : Value) : Same value value
  | array {items others : List Value} (h : List.Forall₂ Same items others) : Same (.array items) (.array others)
  | object {fields others : Members} (h : Rearranged SameMember fields others) : Same (.object fields) (.object others)

inductive SameMember : JsString × Value → JsString × Value → Prop
  | intro (key : JsString) {value other : Value} (h : Same value other) : SameMember (key, value) (key, other)
end

inductive Step
  | index (i : Nat)
  | key (name : JsString)

/-- A number that is too large stands at a place in the value. -/
def HasInfinity (negative : Bool) : List Step → Value → Prop
  | [], value => value = .infinity negative
  | .index i :: place, value => ∃ items item, value = .array items ∧ items[i]? = some item ∧ HasInfinity negative place item
  | .key name :: place, value => ∃ fields item, value = .object fields ∧ (name, item) ∈ fields ∧ HasInfinity negative place item

/-- The numbers that are too large stand at the same places. -/
def SameInfinities (value other : Value) : Prop :=
  ∀ negative place, HasInfinity negative place value ↔ HasInfinity negative place other

def At (found : Value) : List Step → Value → Prop
  | [], value => value = found
  | .index i :: place, value => ∃ items item, value = .array items ∧ items[i]? = some item ∧ At found place item
  | .key name :: place, value => ∃ fields item, value = .object fields ∧ (name, item) ∈ fields ∧ At found place item

theorem hasInfinity_iff_at {negative : Bool} {place : List Step} {value : Value} :
    HasInfinity negative place value ↔ At (.infinity negative) place value := by
  induction place generalizing value with
  | nil => exact Iff.rfl
  | cons step place ih =>
    cases step with
    | index | key => simp only [HasInfinity, At, ih]

theorem at_item {items : List Value} {i : Nat} {item : Value} (hItem : items[i]? = some item) {found : Value}
    {place : List Step} : At found (.index i :: place) (.array items) ↔ At found place item := by
  constructor
  · rintro ⟨_, other, hArray, hOther, hPlace⟩
    cases hArray
    rw [hItem] at hOther
    cases hOther
    exact hPlace
  · exact fun hPlace => ⟨items, item, rfl, hItem, hPlace⟩

theorem eq_of_key {fields : Members} (distinct : (fields.map Prod.fst).Nodup) {key : JsString} {value other : Value}
    (h : (key, value) ∈ fields) (hOther : (key, other) ∈ fields) : value = other :=
  congrArg Prod.snd (List.inj_on_of_nodup_map distinct h hOther rfl)

theorem at_member {fields : Members} (distinct : (fields.map Prod.fst).Nodup) {key : JsString} {value : Value}
    (hMember : (key, value) ∈ fields) {found : Value} {place : List Step} :
    At found (.key key :: place) (.object fields) ↔ At found place value := by
  constructor
  · rintro ⟨_, other, hObject, hOther, hPlace⟩
    cases hObject
    rw [eq_of_key distinct hMember hOther]
    exact hPlace
  · exact fun hPlace => ⟨fields, value, rfl, hMember, hPlace⟩

theorem hasInfinity_item {items : List Value} {i : Nat} {item : Value} (hItem : items[i]? = some item) {negative : Bool}
    {place : List Step} : HasInfinity negative (.index i :: place) (.array items) ↔ HasInfinity negative place item := by
  rw [hasInfinity_iff_at, hasInfinity_iff_at, at_item hItem]

theorem hasInfinity_member {fields : Members} (distinct : (fields.map Prod.fst).Nodup) {key : JsString} {value : Value}
    (hMember : (key, value) ∈ fields) {negative : Bool} {place : List Step} :
    HasInfinity negative (.key key :: place) (.object fields) ↔ HasInfinity negative place value := by
  rw [hasInfinity_iff_at, hasInfinity_iff_at, at_member distinct hMember]

/-! ## Same values have the same infinities -/

theorem Same.sameInfinities {value other : Value} (h : Same value other) : SameInfinities value other := by
  induction value using Value.induction generalizing other with
  | undefined | null | bool | number | infinity | string =>
    cases h
    exact fun _ _ => Iff.rfl
  | array items ih =>
    cases h with
    | refl => exact fun _ _ => Iff.rfl
    | array hItems =>
      rename_i others
      intro negative place
      cases place with
      | nil => exact iff_of_false (fun h => by cases h) (fun h => by cases h)
      | cons step place =>
        cases step with
        | key name => exact iff_of_false (by rintro ⟨_, _, h, _⟩; cases h) (by rintro ⟨_, _, h, _⟩; cases h)
        | index i =>
          have hLength := hItems.length_eq
          by_cases hi : i < items.length
          · have hItem := List.getElem?_eq_getElem hi
            have hOther := List.getElem?_eq_getElem (hLength ▸ hi : i < others.length)
            rw [hasInfinity_item hItem, hasInfinity_item hOther]
            exact ih _ (List.getElem_mem hi) (hItems.get hi (hLength ▸ hi)) negative place
          · refine iff_of_false ?_ ?_
            · rintro ⟨_, _, hArray, hItem, _⟩
              cases hArray
              rw [List.getElem?_eq_none (by omega)] at hItem
              cases hItem
            · rintro ⟨_, _, hArray, hItem, _⟩
              cases hArray
              rw [List.getElem?_eq_none (by omega)] at hItem
              cases hItem
  | object fields ih =>
    cases h with
    | refl => exact fun _ _ => Iff.rfl
    | object hFields =>
      rename_i others
      intro negative place
      cases place with
      | nil => exact iff_of_false (fun h => by cases h) (fun h => by cases h)
      | cons step place =>
        cases step with
        | index i => exact iff_of_false (by rintro ⟨_, _, h, _⟩; cases h) (by rintro ⟨_, _, h, _⟩; cases h)
        | key name =>
          constructor
          · rintro ⟨_, value, hObject, hMember, hPlace⟩
            cases hObject
            obtain ⟨_, hOther, hSame⟩ := hFields.mem_left hMember
            cases hSame with
            | intro _ hSame => exact ⟨others, _, rfl, hOther, (ih _ hMember hSame negative place).mp hPlace⟩
          · rintro ⟨_, other, hObject, hMember, hPlace⟩
            cases hObject
            obtain ⟨_, hValue, hSame⟩ := hFields.mem_right hMember
            cases hSame with
            | intro _ hSame => exact ⟨fields, _, rfl, hValue, (ih _ hValue hSame negative place).mpr hPlace⟩

/-! ## The text determines the value -/

variable {collation : Collation} {value other : Value}

/-- What is printed of a value without quotation marks or brackets. -/
def leaf : Value → Option Json
  | .null | .infinity _ => some .null
  | .bool b => some (.bool b)
  | .number n => some (numberJson n)
  | _ => none

theorem isAtomChar_number {c : Char} (h : Json.isNumberChar c = true) : isAtomChar c = true := by
  have hMarks : (marks.any Json.isNumberChar) = false := by decide
  rw [isAtomChar, Bool.not_eq_true', List.contains_eq_mem, decide_eq_false_iff_not]
  intro hMark
  exact List.any_eq_false.mp hMarks c hMark h

theorem leaf_word (hValue : value.Parsed) {json : Json} (h : leaf value = some json) :
    json.Plain ∧ (JsonTree.atom json.print : JsonTree JsString).Valid := by
  cases hValue with
  | null | infinity =>
    cases h
    exact ⟨trivial, .atom (by decide) (List.all_eq_true.mp (by decide))⟩
  | bool b =>
    cases h
    refine ⟨trivial, ?_⟩
    cases b with
    | false => exact .atom (by decide) (List.all_eq_true.mp (by decide))
    | true => exact .atom (by decide) (List.all_eq_true.mp (by decide))
  | integer z =>
    cases h
    obtain ⟨hNonempty, hChars⟩ := Json.toString_chars z
    refine ⟨trivial, .atom ?_ ?_⟩
    · rw [numberJson, Json.print]
      exact hNonempty
    · rw [numberJson, Json.print]
      exact fun c hc => isAtomChar_number (hChars c hc)
  | fraction hText =>
    cases h
    obtain ⟨hNonempty, hChars, _⟩ := Json.isFraction_chars hText
    refine ⟨?_, .atom ?_ ?_⟩
    · rw [numberJson, Json.Plain]
      exact hText
    · rw [numberJson, Json.print]
      exact hNonempty
    · rw [numberJson, Json.print]
      exact fun c hc => isAtomChar_number (hChars c hc)
  | string | array | object => cases h

theorem stableTree_leaf {json : Json} (h : leaf value = some json) : stableTree collation value = .atom json.print := by
  cases value with
  | null | bool | number | infinity =>
    cases h
    rw [stableTree]
  | undefined | string | array | object => cases h

theorem stableTree_array (items : List Value) : stableTree collation (.array items) = .array (items.map (stableTree collation)) := by
  rw [stableTree]
  congr 1
  induction items with
  | nil => rw [stableItems, List.map_nil]
  | cons item rest ih => rw [stableItems, List.map_cons, ih]

theorem stableTree_object {fields : Members} (h : ∀ field ∈ fields, field.2.Parsed) : stableTree collation (.object fields) =
    .object (sortMembers collation (fields.map fun field => (field.1, stableTree collation field.2))) := by
  rw [stableTree]
  congr 2
  induction fields with
  | nil => rw [stableFields, List.map_nil]
  | cons field rest ih =>
    obtain ⟨key, value⟩ := field
    rw [List.forall_mem_cons] at h
    rw [List.map_cons, ← ih h.2, stableFields]
    rintro rfl
    cases h.1

theorem stableTree_valid (hValue : value.Parsed) : (stableTree collation value).Valid := by
  induction value using Value.induction with
  | array items ih =>
    cases hValue with
    | array hItems =>
      rw [stableTree_array]
      exact .array (List.forall_mem_map.mpr fun item hItem => ih item hItem (hItems item hItem))
  | object fields ih =>
    cases hValue with
    | object _ hFields =>
      rw [stableTree_object hFields]
      refine .object fun field hField => ?_
      obtain ⟨member, hMember, rfl⟩ := List.mem_map.mp ((List.mergeSort_perm _ _).mem_iff.mp hField)
      exact ih member hMember (hFields member hMember)
  | string s =>
    rw [stableTree]
    exact .text s
  | undefined => cases hValue
  | null | bool | number | infinity =>
    rw [stableTree_leaf rfl]
    exact (leaf_word hValue rfl).2

def HasShape (collation : Collation) (value : Value) : JsonTree JsString → Prop
  | .atom word => ∃ json, leaf value = some json ∧ word = json.print
  | .text s => value = .string s
  | .array trees => ∃ items, value = .array items ∧ (∀ item ∈ items, item.Parsed) ∧ trees = items.map (stableTree collation)
  | .object trees => ∃ fields, value = .object fields ∧ (fields.map Prod.fst).Nodup ∧ (∀ field ∈ fields, field.2.Parsed) ∧
      trees = sortMembers collation (fields.map fun field => (field.1, stableTree collation field.2))

theorem hasShape (hValue : value.Parsed) : HasShape collation value (stableTree collation value) := by
  cases hValue with
  | null | bool | integer | fraction | infinity =>
    rw [stableTree_leaf rfl]
    exact ⟨_, rfl, rfl⟩
  | string s =>
    rw [stableTree]
    exact rfl
  | array hItems =>
    rw [stableTree_array]
    exact ⟨_, rfl, hItems, rfl⟩
  | object distinct hFields =>
    rw [stableTree_object hFields]
    exact ⟨_, rfl, distinct, hFields, rfl⟩

theorem leaf_eq (hValue : value.Parsed) (hOther : other.Parsed) {json : Json} (h : leaf value = some json)
    (h' : leaf other = some json) (hInfinities : SameInfinities value other) : value = other := by
  have hTop : ∀ negative, value = .infinity negative ↔ other = .infinity negative := fun negative => hInfinities negative []
  cases hValue with
  | null =>
    cases h
    cases hOther with
    | null => rfl
    | infinity negative => cases (hTop negative).mpr rfl
    | bool | integer | fraction | string | array | object => cases h'
  | infinity negative => exact ((hTop negative).mp rfl).symm
  | bool b =>
    cases h
    cases hOther with
    | bool => cases h'; rfl
    | null | infinity | integer | fraction | string | array | object => cases h'
  | integer z =>
    cases h
    cases hOther with
    | integer => cases h'; rfl
    | null | infinity | bool | fraction | string | array | object => cases h'
  | fraction hText =>
    cases h
    cases hOther with
    | fraction => cases h'; rfl
    | null | infinity | bool | integer | string | array | object => cases h'
  | string | array | object => cases h

/-- The values under one tree are the same when their infinities are; by induction on the first value. -/
theorem same_of_tree (hValue : value.Parsed) (hOther : other.Parsed)
    (hTree : stableTree collation value = stableTree collation other) (hInfinities : SameInfinities value other) :
    Same value other := by
  have hShape : HasShape collation other _ := hasShape hOther
  rw [← hTree] at hShape
  induction value using Value.induction generalizing other with
  | array items ih =>
    cases hValue with
    | array hItems =>
      rw [stableTree_array] at hShape
      obtain ⟨others, rfl, hOthers, hMaps⟩ := hShape
      refine .array (List.forall₂_iff_get.mpr ⟨?_, fun i hi hj => ?_⟩)
      · have hLength := congrArg List.length hMaps
        rwa [List.length_map, List.length_map] at hLength
      · have hItem := List.getElem?_eq_getElem hi
        have hOtherItem := List.getElem?_eq_getElem hj
        have hTrees := congrArg (fun trees => trees[i]?) hMaps
        simp only [List.getElem?_map, hItem, hOtherItem, Option.map_some, Option.some.injEq] at hTrees
        have hPlaces : SameInfinities items[i] others[i] := by
          intro negative place
          have hPlace := hInfinities negative (.index i :: place)
          rwa [hasInfinity_item hItem, hasInfinity_item hOtherItem] at hPlace
        have hParsed := hOthers _ (List.getElem_mem hj)
        have hItemShape : HasShape collation others[i] _ := hasShape hParsed
        rw [← hTrees] at hItemShape
        exact ih _ (List.getElem_mem hi) (hItems _ (List.getElem_mem hi)) hParsed hTrees hPlaces hItemShape
  | object fields ih =>
    cases hValue with
    | object distinct hFields =>
      rw [stableTree_object hFields] at hShape
      obtain ⟨others, rfl, distinct', hOthers, hSorted⟩ := hShape
      have hPerm := (List.mergeSort_perm _ _).symm.trans (.of_eq hSorted) |>.trans (List.mergeSort_perm _ _)
      refine .object ((rearranged_of_map hPerm).imp ?_)
      rintro ⟨key, member⟩ hMember ⟨name, otherMember⟩ hOtherMember hSame
      obtain ⟨rfl, hTrees⟩ := Prod.mk.inj hSame
      have hPlaces : SameInfinities member otherMember := by
        intro negative place
        have hPlace := hInfinities negative (.key key :: place)
        rwa [hasInfinity_member distinct hMember, hasInfinity_member distinct' hOtherMember] at hPlace
      have hParsed := hOthers _ hOtherMember
      have hMemberShape : HasShape collation otherMember _ := hasShape hParsed
      rw [← hTrees] at hMemberShape
      exact .intro key (ih _ hMember (hFields _ hMember) hParsed hTrees hPlaces hMemberShape)
  | string s =>
    rw [stableTree] at hShape
    rw [show other = .string s from hShape]
    exact .refl _
  | undefined => cases hValue
  | null | bool | number | infinity =>
    rw [stableTree_leaf rfl] at hShape
    obtain ⟨json, hLeaf, hPrint⟩ := hShape
    have hJson := Json.print_injective (leaf_word hValue rfl).1 (leaf_word hOther hLeaf).1 hPrint
    rw [leaf_eq hValue hOther rfl (hJson ▸ hLeaf) hInfinities]
    exact .refl _

theorem same_iff (hValue : value.Parsed) (hOther : other.Parsed)
    (hText : stableStringify collation value = stableStringify collation other) :
    Same value other ↔ SameInfinities value other := by
  constructor
  · exact Same.sameInfinities
  · have hPrint := String.ofList_injective hText
    have hTree := print_injective quotes_text (stableTree_valid hValue) (stableTree_valid hOther) hPrint
    exact same_of_tree hValue hOther hTree

end GhostApi.Evidence
