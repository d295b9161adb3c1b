import GhostApi.Canonical.Data
import GhostApi.Lib.Mutation

/-!
# The canonical JSON of the ledger, the gateway and the safety controller

Three copies of one recursion: scalars as JSON.stringify writes them, objects
with their keys in the order of Array.sort. They differ in what they throw, and
the safety controller prints a number that is not finite as null.
-/

namespace GhostApi.Canonical

open Js Evidence Printed Reordering
open Policy (JsString)

/-! ## The recursion -/

/-- JSON.stringify on a number. -/
def stringifyNumber (n : DataNumber) : List Char := (numberJson n.unsigned).print

/-- Object.keys(record).sort() -/
def sortByKey {α : Type} (fields : List (JsString × α)) : List (JsString × α) := sortMembers unitLe fields

/-- [...].join(",") between two brackets. -/
def bracket (first last : Char) (parts : List (List Char)) : List Char := first :: ([','].intercalate parts ++ [last])

section Recursion

variable (number : DataNumber → Except JsError (List Char)) (notData : JsError)

mutual
def canonicalText : Data → Except JsError (List Char)
  | .null => .ok (Json.print .null)
  | .bool b => .ok (Json.print (.bool b))
  | .string s => .ok (quoteText s)
  | .number n => number n
  | .array items => do
    let parts ← (canonicalItems items).mapM id
    .ok (bracket '[' ']' parts)
  | .object fields => do
    let parts ← (sortByKey (canonicalFields fields)).mapM fun field => do
      let text ← field.2
      .ok (quoteText field.1 ++ ':' :: text)
    .ok (bracket '\x7b' '\x7d' parts)
  | .undefined => .error notData

def canonicalItems : List Data → List (Except JsError (List Char))
  | [] => []
  | item :: rest => canonicalText item :: canonicalItems rest

def canonicalFields : List (JsString × Data) → List (JsString × Except JsError (List Char))
  | [] => []
  | (key, value) :: rest => (key, canonicalText value) :: canonicalFields rest
end

end Recursion

def finiteOnly (error : JsError) : DataNumber → Except JsError (List Char)
  | .nonFinite => .error error
  | n => .ok (stringifyNumber n)

end GhostApi.Canonical

namespace GhostApi.Ledger

open Canonical Js

def ledgerError (message : String) : JsError := ⟨"ActionLedgerError", message, none⟩

def canonicalJson (value : Data) : Except JsError String :=
  (canonicalText (finiteOnly (ledgerError "Ledger values must be finite JSON data.")) (ledgerError "Ledger values must be JSON data.")
    value).map String.ofList

end GhostApi.Ledger

namespace GhostApi.Actions

open Canonical Js

def gatewayError (message : String) : JsError := ⟨"ActionGatewayError", message, none⟩

def canonicalJson (value : Data) : Except JsError String :=
  (canonicalText (finiteOnly (gatewayError "Canonical action values must be finite."))
    (gatewayError "Canonical action values must be JSON data.") value).map String.ofList

end GhostApi.Actions

namespace GhostApi.Safety

open Canonical Js

def canonical (value : Data) : Except JsError String :=
  (canonicalText (fun n => .ok (stringifyNumber n)) ⟨"SafetyControllerError", "Safety data must be JSON.", none⟩ value).map String.ofList

end GhostApi.Safety

namespace GhostApi.Canonical

open Js Evidence Printed Reordering
open Policy (JsString)

/-! ## The text of a JSON value -/

variable {number : DataNumber → Except JsError (List Char)} {notData : JsError} {data other : Data}

/-- The numbers of JSON values are printed. -/
def PrintsNumbers (number : DataNumber → Except JsError (List Char)) : Prop := ∀ n, n ≠ .nonFinite → number n = .ok (stringifyNumber n)

theorem canonicalItems_eq (items : List Data) : canonicalItems number notData items = items.map (canonicalText number notData) := by
  induction items with
  | nil => rw [canonicalItems, List.map_nil]
  | cons item rest ih => rw [canonicalItems, List.map_cons, ih]

theorem canonicalFields_eq (fields : List (JsString × Data)) :
    canonicalFields number notData fields = fields.map fun field => (field.1, canonicalText number notData field.2) := by
  induction fields with
  | nil => rw [canonicalFields, List.map_nil]
  | cons field rest ih => rw [canonicalFields, List.map_cons, ih]

theorem printItems_eq (trees : List (JsonTree JsString)) :
    printItems quoteText trees = [','].intercalate (trees.map (print quoteText)) ++ [']'] := by
  induction trees with
  | nil => rw [printItems]; rfl
  | cons tree rest ih =>
    rw [printItems, ih]
    cases rest with
    | nil => simp [comma, List.intercalate]
    | cons next rest => simp [comma, List.intercalate]

theorem printFields_eq (fields : List (JsString × JsonTree JsString)) : printFields quoteText fields =
    [','].intercalate (fields.map fun field => quoteText field.1 ++ ':' :: print quoteText field.2) ++ ['\x7d'] := by
  induction fields with
  | nil => rw [printFields]; rfl
  | cons field rest ih =>
    obtain ⟨key, tree⟩ := field
    rw [printFields, ih]
    cases rest with
    | nil => simp [comma, List.intercalate]
    | cons next rest => simp [comma, List.intercalate]

theorem sortByKey_map {α β : Type} (f : α → β) (fields : List (JsString × α)) :
    sortByKey (fields.map fun field => (field.1, f field.2)) = (sortByKey fields).map fun field => (field.1, f field.2) :=
  Eq.symm (List.map_mergeSort (f := fun field : JsString × α => (field.1, f field.2)) fun _ _ _ _ => rfl)

theorem canonicalText_eq (hNumber : PrintsNumbers number) (h : data.IsJson) :
    canonicalText number notData data = .ok (print quoteText (stableTree unitLe data.unsigned)) := by
  induction data using Data.induction with
  | undefined => cases h
  | null =>
    rw [canonicalText, Data.unsigned, stableTree, print]
  | bool b => rw [canonicalText, Data.unsigned, stableTree, print]
  | string s => rw [canonicalText, Data.unsigned, stableTree, print]
  | number n =>
    have hFinite : n ≠ .nonFinite := by
      rintro rfl
      cases h
    rw [canonicalText, hNumber n hFinite, Data.unsigned, stableTree, print, stringifyNumber]
  | array items ih =>
    cases h with
    | array hItems =>
      have hParts : (canonicalItems number notData items).mapM id =
          .ok (items.map fun item => print quoteText (stableTree unitLe item.unsigned)) := by
        rw [canonicalItems_eq, List.mapM_map]
        exact Effect.mapM_eq_pure fun item hItem => ih item hItem (hItems item hItem)
      rw [canonicalText, hParts, Effect.ok_bind, Data.unsigned, unsignedItems_eq, stableTree_array, print, printItems_eq, List.map_map,
        List.map_map]
      rfl
  | object fields ih =>
    cases h with
    | object distinct hFields =>
      have hTexts : (fields.map fun field => (field.1, canonicalText number notData field.2)) = fields.map fun field =>
          (field.1, (.ok (print quoteText (stableTree unitLe field.2.unsigned)) : Except JsError (List Char))) :=
        List.map_congr_left fun field hField => by rw [ih field hField (hFields field hField)]
      have hParsed : ∀ field ∈ fields.map fun field => (field.1, field.2.unsigned), Value.Parsed field.2 :=
        List.forall_mem_map.mpr fun field hField => (hFields field hField).parsed
      have hParts : ((sortByKey (canonicalFields number notData fields)).mapM fun field => do
            let text ← field.2
            .ok (quoteText field.1 ++ ':' :: text)) =
          .ok ((sortByKey fields).map fun field => quoteText field.1 ++ ':' :: print quoteText (stableTree unitLe field.2.unsigned)) := by
        have hSorted := sortByKey_map
          (fun value : Data => (.ok (print quoteText (stableTree unitLe value.unsigned)) : Except JsError (List Char))) fields
        rw [canonicalFields_eq, hTexts, hSorted, List.mapM_map]
        exact Effect.mapM_eq_pure fun field _ => rfl
      have hTrees : (sortMembers unitLe ((fields.map fun field => (field.1, field.2.unsigned)).map fun field =>
          (field.1, stableTree unitLe field.2))) = (sortByKey fields).map fun field => (field.1, stableTree unitLe field.2.unsigned) := by
        rw [List.map_map]
        exact sortByKey_map (fun value : Data => stableTree unitLe value.unsigned) fields
      rw [canonicalText, hParts, Effect.ok_bind, Data.unsigned, unsignedFields_eq, stableTree_object hParsed, hTrees, print,
        printFields_eq, List.map_map]
      rfl

/-! ## Equal texts, same values -/

theorem unitLe_trans (a b c : JsString) (hab : unitLe a b = true) (hbc : unitLe b c = true) : unitLe a c = true := by
  simp only [unitLe, Bool.not_eq_true', List.lex_eq_false_iff_ge] at *
  exact List.le_trans hab hbc

theorem unitLe_total (a b : JsString) : (unitLe a b || unitLe b a) = true := by
  simp only [unitLe, Bool.or_eq_true, Bool.not_eq_true', List.lex_eq_false_iff_ge]
  exact List.le_total _ _

theorem unitLe_antisymm {a b : JsString} (hab : unitLe a b = true) (hba : unitLe b a = true) : a = b := by
  simp only [unitLe, Bool.not_eq_true', List.lex_eq_false_iff_ge] at *
  exact List.le_antisymm hab hba

theorem sortByKey_congr {α : Type} {fields others : List (JsString × α)} (distinct : (fields.map Prod.fst).Nodup)
    (h : fields.Perm others) : sortByKey fields = sortByKey others := by
  have hSorted : ∀ members : List (JsString × α), (sortByKey members).Pairwise fun a b => unitLe a.1 b.1 = true := fun members =>
    List.pairwise_mergeSort (fun a b c => unitLe_trans a.1 b.1 c.1) (fun a b => unitLe_total a.1 b.1) members
  have hPerm : (sortByKey fields).Perm (sortByKey others) :=
    (List.mergeSort_perm _ _).trans (h.trans (List.mergeSort_perm _ _).symm)
  refine List.Perm.eq_of_pairwise ?_ (hSorted fields) (hSorted others) hPerm
  intro a b ha hb hab hba
  have hLeft : a ∈ fields := (List.mergeSort_perm _ _).mem_iff.mp ha
  have hRight : b ∈ fields := h.mem_iff.mpr ((List.mergeSort_perm _ _).mem_iff.mp hb)
  exact List.inj_on_of_nodup_map distinct hLeft hRight (unitLe_antisymm hab hba)

theorem map_eq_map_of_forall₂ {α β γ : Type} {f : α → γ} {g : β → γ} {xs : List α} {ys : List β}
    (h : List.Forall₂ (fun x y => f x = g y) xs ys) : xs.map f = ys.map g := by
  induction h with
  | nil => rfl
  | cons hHead _ ih => rw [List.map_cons, List.map_cons, hHead, ih]

/-- By induction on the first value. -/
theorem stableTree_eq_of_same {value other : Value} (hValue : value.Parsed) (hOther : other.Parsed) (h : Same value other) :
    stableTree unitLe value = stableTree unitLe other := by
  induction value using Value.induction generalizing other with
  | undefined | null | bool | number | infinity | string =>
    cases h
    rfl
  | array items ih =>
    cases hValue with
    | array hItems =>
      cases h with
      | refl => rfl
      | array hSame =>
        rename_i others
        cases hOther with
        | array hOthers =>
          rw [stableTree_array, stableTree_array]
          congr 1
          exact map_eq_map_of_forall₂ (forall₂_imp hSame fun item hItem other hMem => ih item hItem (hItems item hItem) (hOthers other hMem))
  | object fields ih =>
    cases hValue with
    | object distinct hFields =>
      cases h with
      | refl => rfl
      | object hSame =>
        rename_i others
        cases hOther with
        | object distinct' hOthers =>
          rw [stableTree_object hFields, stableTree_object hOthers]
          congr 1
          refine sortByKey_congr ?_ ?_
          · rw [List.map_map]
            exact distinct
          · obtain ⟨middle, hPerm, hRelated⟩ := rearranged_iff.mp hSame
            have hTrees : List.Forall₂ (fun field other => (field.1, stableTree unitLe field.2) = (other.1, stableTree unitLe other.2))
                middle others := by
              refine forall₂_imp hRelated fun field hField other hMem hMember => ?_
              cases hMember with
              | intro key hMember =>
                have hMine := hPerm.mem_iff.mpr hField
                rw [ih _ hMine (hFields _ hMine) (hOthers _ hMem) hMember]
            rw [← map_eq_map_of_forall₂ hTrees]
            exact hPerm.map _

theorem stableTree_eq_iff (h : data.IsJson) (hOther : other.IsJson) :
    stableTree unitLe data.unsigned = stableTree unitLe other.unsigned ↔ data.SameUpToKeyOrder other := by
  constructor
  · intro hTree
    refine same_of_tree h.parsed hOther.parsed hTree fun negative place => ?_
    exact iff_of_false (not_hasInfinity data negative place) (not_hasInfinity other negative place)
  · exact stableTree_eq_of_same h.parsed hOther.parsed

theorem finiteOnly_prints (error : JsError) : PrintsNumbers (finiteOnly error) := by
  intro n hFinite
  cases n with
  | nonFinite => exact absurd rfl hFinite
  | integer | negativeZero | fraction => rfl

theorem canonicalJson_eq (h : data.IsJson) :
    Ledger.canonicalJson data = .ok (stableStringify unitLe data.unsigned) ∧
    Actions.canonicalJson data = .ok (stableStringify unitLe data.unsigned) ∧
    Safety.canonical data = .ok (stableStringify unitLe data.unsigned) := by
  refine ⟨?_, ?_, ?_⟩
  · rw [Ledger.canonicalJson, canonicalText_eq (finiteOnly_prints _) h]
    rfl
  · rw [Actions.canonicalJson, canonicalText_eq (finiteOnly_prints _) h]
    rfl
  · rw [Safety.canonical, canonicalText_eq (fun _ _ => rfl) h]
    rfl

theorem canonicalJson_eq_iff (data other : Data) (h : data.IsJson) (hOther : other.IsJson) :
    (Ledger.canonicalJson data = Ledger.canonicalJson other ↔ data.SameUpToKeyOrder other) ∧
    ∃ text, Ledger.canonicalJson data = .ok text ∧ Actions.canonicalJson data = .ok text ∧ Safety.canonical data = .ok text := by
  refine ⟨?_, _, canonicalJson_eq h⟩
  rw [(canonicalJson_eq h).1, (canonicalJson_eq hOther).1, Except.ok.injEq, ← stableTree_eq_iff h hOther]
  constructor
  · intro hText
    exact print_injective quotes_text (stableTree_valid h.parsed) (stableTree_valid hOther.parsed) (String.ofList_injective hText)
  · intro hTree
    rw [stableStringify, hTree, stableStringify]

def pair (first second : JsString × DataNumber) : Data := .object [(first.1, .number first.2), (second.1, .number second.2)]

theorem pair_isJson {first second : JsString × Int} (h : first.1 ≠ second.1) :
    (pair (first.1, .integer first.2) (second.1, .integer second.2)).IsJson ∧
    (pair (first.1, .integer first.2) (second.1, .negativeZero)).IsJson := by
  constructor
  · exact .object (by simpa using h) (List.forall_mem_cons.mpr ⟨.integer _, List.forall_mem_singleton.mpr (.integer _)⟩)
  · exact .object (by simpa using h) (List.forall_mem_cons.mpr ⟨.integer _, List.forall_mem_singleton.mpr .negativeZero⟩)

theorem canonicalJson_eq_iff_pair :
    (Ledger.canonicalJson (pair ([97], .integer 0) ([98], .integer 1)) = Ledger.canonicalJson (pair ([98], .integer 1) ([97], .negativeZero)) ↔
      (pair ([97], .integer 0) ([98], .integer 1)).SameUpToKeyOrder (pair ([98], .integer 1) ([97], .negativeZero))) ∧
    ∃ text, Ledger.canonicalJson (pair ([97], .integer 0) ([98], .integer 1)) = .ok text ∧
      Actions.canonicalJson (pair ([97], .integer 0) ([98], .integer 1)) = .ok text ∧
      Safety.canonical (pair ([97], .integer 0) ([98], .integer 1)) = .ok text :=
  canonicalJson_eq_iff _ _ (@pair_isJson ([97], 0) ([98], 1) (by decide)).1 (@pair_isJson ([98], 1) ([97], 0) (by decide)).2

end GhostApi.Canonical
