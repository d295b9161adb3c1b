import GhostApi.Canonical.CanonicalJson
import GhostApi.Evidence.KeyOrder

/-!
# The stable text of cache keys and fingerprints

Three copies of one recursion sort the members of an object with
localeCompare. They differ in what they make of undefined, which JSON values
do not have.
-/

namespace GhostApi.Canonical

open Js hiding Collation
open Evidence Printed Reordering StableSort
open Policy (JsString)

def Data.isUndefined : Data → Bool
  | .undefined => true
  | _ => false

section Recursion

variable (collation : Collation) (absent : Option (List Char)) (leavesOut : Bool)

mutual
/-- What a copy returns for undefined, if anything, and whether it leaves out the members that are undefined. -/
def stableText : Data → Option (List Char)
  | .undefined => absent
  | .null => some (Json.print .null)
  | .bool b => some (Json.print (.bool b))
  | .string s => some (quoteText s)
  | .number n => some (stringifyNumber n)
  | .array items => some (bracket '[' ']' (stableItems items))
  | .object fields => some (bracket '\x7b' '\x7d'
      ((sortMembers collation (stableFields fields)).map fun field => quoteText field.1 ++ ':' :: field.2))

/-- Array.join writes nothing for undefined. -/
def stableItems : List Data → List (List Char)
  | [] => []
  | item :: rest => (stableText item).getD [] :: stableItems rest

/-- A template literal writes undefined for undefined. -/
def stableFields : List (JsString × Data) → List (JsString × List Char)
  | [] => []
  | (key, value) :: rest =>
    if leavesOut && value.isUndefined then stableFields rest
    else (key, (stableText value).getD "undefined".toList) :: stableFields rest
end

end Recursion

end GhostApi.Canonical

namespace GhostApi.Proxy.CacheKey

open Canonical Evidence

def stableStringify (collation : Collation) (value : Data) : Option String :=
  (stableText collation none false value).map String.ofList

end GhostApi.Proxy.CacheKey

namespace GhostApi.Contracts.Contract

open Canonical Evidence

def stableStringify (collation : Collation) (value : Data) : Option String :=
  (stableText collation (some "null".toList) true value).map String.ofList

end GhostApi.Contracts.Contract

namespace GhostApi.Stripe.StripePack

open Canonical Evidence

def stableStringify (collation : Collation) (value : Data) : Option String :=
  (stableText collation none false value).map String.ofList

end GhostApi.Stripe.StripePack

namespace GhostApi.Canonical

open Js hiding Collation
open Evidence Printed Reordering StableSort
open Policy (JsString)

/-! ## The text of a JSON value -/

variable {collation : Collation} {absent : Option (List Char)} {leavesOut : Bool} {data other : Data}

theorem Data.IsJson.isUndefined_eq (h : data.IsJson) : data.isUndefined = false := by
  cases h <;> rfl

/-- The text that every copy prints of a JSON value. -/
def printed (collation : Collation) (data : Data) : List Char := print quoteText (stableTree collation data.unsigned)

theorem stableItems_eq {items : List Data}
    (h : ∀ item ∈ items, stableText collation absent leavesOut item = some (printed collation item)) :
    stableItems collation absent leavesOut items = items.map (printed collation) := by
  induction items with
  | nil => rw [stableItems, List.map_nil]
  | cons item rest ih =>
    rw [List.forall_mem_cons] at h
    rw [stableItems, List.map_cons, h.1, Option.getD_some, ih h.2]

theorem stableFields_eq {fields : List (JsString × Data)} (hJson : ∀ field ∈ fields, field.2.IsJson)
    (h : ∀ field ∈ fields, stableText collation absent leavesOut field.2 = some (printed collation field.2)) :
    stableFields collation absent leavesOut fields = fields.map fun field => (field.1, printed collation field.2) := by
  induction fields with
  | nil => rw [stableFields, List.map_nil]
  | cons field rest ih =>
    rw [List.forall_mem_cons] at hJson h
    rw [stableFields, hJson.1.isUndefined_eq, Bool.and_false, if_neg Bool.false_ne_true, List.map_cons, h.1, Option.getD_some,
      ih hJson.2 h.2]

theorem sortMembers_map {α β : Type} (f : α → β) (fields : List (JsString × α)) :
    sortMembers collation (fields.map fun field => (field.1, f field.2)) =
      (sortMembers collation fields).map fun field => (field.1, f field.2) :=
  Eq.symm (List.map_mergeSort (f := fun field : JsString × α => (field.1, f field.2)) fun _ _ _ _ => rfl)

/-- Every copy prints the tree of a JSON value; by induction on the value. -/
theorem stableText_eq (h : data.IsJson) : stableText collation absent leavesOut data = some (printed collation data) := by
  induction data using Data.induction with
  | undefined => cases h
  | null | bool | string => rw [stableText, printed, Data.unsigned, stableTree, print]
  | number n => rw [stableText, printed, Data.unsigned, stableTree, print, stringifyNumber]
  | array items ih =>
    cases h with
    | array hItems =>
      rw [stableText, stableItems_eq fun item hItem => ih item hItem (hItems item hItem), printed, Data.unsigned, unsignedItems_eq,
        stableTree_array, print, printItems_eq, List.map_map, List.map_map]
      rfl
  | object fields ih =>
    cases h with
    | object distinct hFields =>
      have hParsed : ∀ field ∈ fields.map fun field => (field.1, field.2.unsigned), Value.Parsed field.2 :=
        List.forall_mem_map.mpr fun field hField => (hFields field hField).parsed
      have hTexts := stableFields_eq hFields fun field hField => ih field hField (hFields field hField)
      have hTrees : (sortMembers collation ((fields.map fun field => (field.1, field.2.unsigned)).map fun field =>
          (field.1, stableTree collation field.2))) =
            (sortMembers collation fields).map fun field => (field.1, stableTree collation field.2.unsigned) := by
        rw [List.map_map]
        exact sortMembers_map (fun value : Data => stableTree collation value.unsigned) fields
      rw [stableText, hTexts, sortMembers_map, printed, Data.unsigned, unsignedFields_eq, stableTree_object hParsed, hTrees, print,
        printFields_eq, List.map_map, List.map_map]
      rfl

theorem stableStringify_eq (h : data.IsJson) :
    Proxy.CacheKey.stableStringify collation data = some (stableStringify collation data.unsigned) ∧
    Contracts.Contract.stableStringify collation data = some (stableStringify collation data.unsigned) ∧
    Stripe.StripePack.stableStringify collation data = some (stableStringify collation data.unsigned) := by
  refine ⟨?_, ?_, ?_⟩
  · rw [Proxy.CacheKey.stableStringify, stableText_eq h]
    rfl
  · rw [Contracts.Contract.stableStringify, stableText_eq h]
    rfl
  · rw [Stripe.StripePack.stableStringify, stableText_eq h]
    rfl

/-! ## When the order of keys shows -/

/-- Wherever both values have an object, its keys that localeCompare does not separate come in the same order. -/
def Data.TiesInOrder (collation : Collation) (data other : Data) : Prop :=
  Evidence.TiesInOrder collation data.unsigned other.unsigned

theorem stableStringify_eq_iff (hOrder : Compares collation) (h : data.IsJson) (hOther : other.IsJson) :
    stableStringify collation data.unsigned = stableStringify collation other.unsigned ↔
      data.SameUpToKeyOrder other ∧ data.TiesInOrder collation other := by
  have hInfinities : SameInfinities data.unsigned other.unsigned := fun negative place =>
    iff_of_false (not_hasInfinity data negative place) (not_hasInfinity other negative place)
  rw [Data.SameUpToKeyOrder, Data.TiesInOrder, ← stableTree_eq_iff_same hOrder h.parsed hOther.parsed hInfinities]
  constructor
  · intro hText
    exact print_injective quotes_text (stableTree_valid h.parsed) (stableTree_valid hOther.parsed) (String.ofList_injective hText)
  · intro hTree
    rw [stableStringify, hTree, stableStringify]

def Distinguishes (stringify : Data → Option String) (data other : Data) : Prop :=
  stringify data = stringify other ↔ data.SameUpToKeyOrder other

theorem distinguishes_iff (hOrder : Compares collation) (h : data.IsJson) (hOther : other.IsJson) {stringify : Data → Option String}
    (hCopy : ∀ value : Data, value.IsJson → stringify value = some (stableStringify collation value.unsigned)) :
    Distinguishes stringify data other ↔ (data.SameUpToKeyOrder other → data.TiesInOrder collation other) := by
  rw [Distinguishes, hCopy data h, hCopy other hOther, Option.some.injEq, stableStringify_eq_iff hOrder h hOther]
  constructor
  · exact fun hSame hData => (hSame.mpr hData).2
  · exact fun hTies => ⟨And.left, fun hData => ⟨hData, hTies hData⟩⟩

theorem copies_distinguish_iff (collation : Collation) (hOrder : Compares collation) (data other : Data) (h : data.IsJson)
    (hOther : other.IsJson) :
    (Distinguishes (Proxy.CacheKey.stableStringify collation) data other ↔
      (data.SameUpToKeyOrder other → data.TiesInOrder collation other)) ∧
    (Distinguishes (Contracts.Contract.stableStringify collation) data other ↔
      (data.SameUpToKeyOrder other → data.TiesInOrder collation other)) ∧
    (Distinguishes (Stripe.StripePack.stableStringify collation) data other ↔
      (data.SameUpToKeyOrder other → data.TiesInOrder collation other)) := by
  refine ⟨?_, ?_, ?_⟩
  · exact distinguishes_iff hOrder h hOther fun value hValue => (stableStringify_eq hValue).1
  · exact distinguishes_iff hOrder h hOther fun value hValue => (stableStringify_eq hValue).2.1
  · exact distinguishes_iff hOrder h hOther fun value hValue => (stableStringify_eq hValue).2.2

theorem copies_distinguish_iff_pair :
    (Distinguishes (Proxy.CacheKey.stableStringify unitLe) (pair ([97], .integer 0) ([98], .integer 1))
        (pair ([98], .integer 1) ([97], .negativeZero)) ↔
      ((pair ([97], .integer 0) ([98], .integer 1)).SameUpToKeyOrder (pair ([98], .integer 1) ([97], .negativeZero)) →
        (pair ([97], .integer 0) ([98], .integer 1)).TiesInOrder unitLe (pair ([98], .integer 1) ([97], .negativeZero)))) ∧
    (Distinguishes (Contracts.Contract.stableStringify unitLe) (pair ([97], .integer 0) ([98], .integer 1))
        (pair ([98], .integer 1) ([97], .negativeZero)) ↔
      ((pair ([97], .integer 0) ([98], .integer 1)).SameUpToKeyOrder (pair ([98], .integer 1) ([97], .negativeZero)) →
        (pair ([97], .integer 0) ([98], .integer 1)).TiesInOrder unitLe (pair ([98], .integer 1) ([97], .negativeZero)))) ∧
    (Distinguishes (Stripe.StripePack.stableStringify unitLe) (pair ([97], .integer 0) ([98], .integer 1))
        (pair ([98], .integer 1) ([97], .negativeZero)) ↔
      ((pair ([97], .integer 0) ([98], .integer 1)).SameUpToKeyOrder (pair ([98], .integer 1) ([97], .negativeZero)) →
        (pair ([97], .integer 0) ([98], .integer 1)).TiesInOrder unitLe (pair ([98], .integer 1) ([97], .negativeZero)))) :=
  copies_distinguish_iff unitLe ⟨unitLe_trans, unitLe_total⟩ _ _ (@pair_isJson ([97], 0) ([98], 1) (by decide)).1
    (@pair_isJson ([98], 1) ([97], 0) (by decide)).2

/-! ## Canonically equivalent keys -/

/-- The letter é as one character, and as e with a combining accent. -/
def composed : JsString := [0xe9]

def decomposed : JsString := [0x65, 0x301]

/-- What a localeCompare guarantees; of the canonically equivalent texts it has to take as equal only two are named. -/
structure LocaleCompare (collation : Collation) : Prop where
  compares : Compares collation
  equivalent : tied collation composed decomposed = true

def accents : Data := pair (composed, .integer 1) (decomposed, .integer 2)

def accentsSwapped : Data := pair (decomposed, .integer 2) (composed, .integer 1)

theorem accents_isJson : accents.IsJson ∧ accentsSwapped.IsJson :=
  ⟨(@pair_isJson (composed, 1) (decomposed, 2) (by decide)).1, (@pair_isJson (decomposed, 2) (composed, 1) (by decide)).1⟩

theorem accents_same : accents.SameUpToKeyOrder accentsSwapped := by
  refine .object (.cons (.swap _ _ _) (.intro _ (.refl _)) (.cons (.refl _) (.intro _ (.refl _)) .nil))

theorem accents_ties (hLocale : LocaleCompare collation) : ¬accents.TiesInOrder collation accentsSwapped := by
  intro hTies
  have hKeys := hTies [] _ _ rfl rfl composed
  have hOne : tied collation composed composed = true := hLocale.compares.tied_refl composed
  rw [tiesOf, tiesOf] at hKeys
  simp [unsignedFields, hOne, hLocale.equivalent] at hKeys
  exact absurd hKeys.1 (by decide)

def byLetter (a b : JsString) : Bool :=
  decide ((if a.head? = some 0xe9 then some 0x65 else a.head?).getD 0 ≤ (if b.head? = some 0xe9 then some 0x65 else b.head?).getD 0)

theorem byLetter_compares : Compares byLetter where
  trans a b c hab hbc := by
    simp only [byLetter, decide_eq_true_eq] at *
    exact UInt16.le_trans hab hbc
  total a b := by
    simp only [byLetter, Bool.or_eq_true, decide_eq_true_eq]
    exact UInt16.le_total _ _

theorem byLetter_localeCompare : LocaleCompare byLetter where
  compares := byLetter_compares
  equivalent := by decide

/-- There is an admissible localeCompare, and with each of them two requests that differ in the order of keys only
have different texts in every copy. -/
theorem keyOrder_shows :
    (∃ collation, LocaleCompare collation) ∧
    ¬∃ collation, LocaleCompare collation ∧ ∀ data other : Data, data.IsJson → other.IsJson → data.SameUpToKeyOrder other →
      Proxy.CacheKey.stableStringify collation data = Proxy.CacheKey.stableStringify collation other ∨
      Contracts.Contract.stableStringify collation data = Contracts.Contract.stableStringify collation other ∨
      Stripe.StripePack.stableStringify collation data = Stripe.StripePack.stableStringify collation other := by
  refine ⟨⟨byLetter, byLetter_localeCompare⟩, ?_⟩
  rintro ⟨collation, hLocale, hEqual⟩
  have hShown := hEqual accents accentsSwapped accents_isJson.1 accents_isJson.2 accents_same
  obtain ⟨hCache, hContract, hStripe⟩ := @stableStringify_eq collation _ accents_isJson.1
  obtain ⟨hCache', hContract', hStripe'⟩ := @stableStringify_eq collation _ accents_isJson.2
  rw [hCache, hCache', hContract, hContract', hStripe, hStripe', or_self, or_self, Option.some.injEq,
    stableStringify_eq_iff hLocale.compares accents_isJson.1 accents_isJson.2] at hShown
  exact accents_ties hLocale hShown.2

end GhostApi.Canonical
