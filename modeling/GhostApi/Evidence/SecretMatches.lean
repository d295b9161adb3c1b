import GhostApi.Js.Induction
import GhostApi.Lib.Novelty
import GhostApi.Scenarios.Replay
import Mathlib.Logic.Relation

/-!
# Secret matches of an evidence report

The events are searched for token patterns as they were read. A string counts
when it adds a category to those of its event; a field with a secret name
counts once, whatever it holds.
-/

namespace GhostApi.Evidence

open Js Js.Pattern Novelty
open Scenarios (includes isSecretFieldName toLowerCase)
open Security (anyCase prefixed wordChar wordOrDash wordDashDot bearerPattern)

/-! ## What the search finds -/

/-- pattern.test(text) -/
def test (pattern : Pattern) (text : String) : Bool := text.toList.tails.any fun rest => (pattern.matchPrefix rest).isSome

def stripePattern : Pattern := prefixed "sk_live_" (many1 wordOrDash)

def githubPattern : Pattern := alt (prefixed "ghp_" (many1 wordChar)) (prefixed "github_pat_" (many1 wordChar))

def sendgridPattern : Pattern := prefixed "SG." (many1 wordDashDot)

def tokenCategories : List (Pattern × String) :=
  [(stripePattern, "stripe-live-key"), (githubPattern, "github-token"), (bearerPattern, "bearer-token"),
   (sendgridPattern, "sendgrid-token")]

def leafCategories (text : String) : List String := (tokenCategories.filter fun category => test category.1 text).map Prod.snd

def secretCategory (key : String) : String :=
  let normalized := toLowerCase key
  if includes normalized "cookie" then "cookie" else if includes normalized "authorization" then "authorization-header"
  else if includes normalized "api" then "api-key" else if includes normalized "password" then "password"
  else if includes normalized "token" then "token" else "secret-field"

def secretPattern : Pattern :=
  alt (seq (anyCase "sk_live_") (many1 wordOrDash)) (alt (seq (anyCase "ghp_") (many1 wordChar))
    (alt (seq (anyCase "github_pat_") (many1 wordChar)) (alt bearerPattern (seq (anyCase "SG.") (many1 wordDashDot)))))

section AnyString

variable (holds : String → Bool)

mutual
def anyString : JsValue → Bool
  | .string s => holds s
  | .array items => anyStringItems items
  | .object fields => anyStringFields fields
  | _ => false

def anyStringItems : List JsValue → Bool
  | [] => false
  | item :: rest => anyString item || anyStringItems rest

def anyStringFields : Fields → Bool
  | [] => false
  | (_, value) :: rest => anyString value || anyStringFields rest
end

end AnyString

def containsSecretPattern (value : JsValue) : Bool := anyString (test secretPattern) value

structure Found where
  categories : List String
  matched : Nat

def Found.none : Found := ⟨[], 0⟩

def add (categories : List String) (category : String) : List String :=
  if category ∈ categories then categories else categories ++ [category]

def visitLeaf (found : Found) (text : String) : Found :=
  let categories := (leafCategories text).foldl add found.categories
  ⟨categories, if found.categories.length < categories.length then found.matched + 1 else found.matched⟩

def visitSecretField (found : Found) (key : String) (value : JsValue) : Found :=
  ⟨add found.categories (secretCategory key), if containsSecretPattern value then found.matched + 1 else found.matched⟩

mutual
def visit (found : Found) : JsValue → Found
  | .string s => visitLeaf found s
  | .array items => visitItems found items
  | .object fields => visitFields found fields
  | _ => found

def visitItems (found : Found) : List JsValue → Found
  | [] => found
  | item :: rest => visitItems (visit found item) rest

def visitFields (found : Found) : Fields → Found
  | [] => found
  | (key, value) :: rest =>
    visitFields (if isSecretFieldName key then visitSecretField found key value else visit found value) rest
end

def detectSecretCategories (value : JsValue) : Found := visit .none value

/-- The secret matches of the report, without those of the run evidence. -/
def secretMatches (events : List JsValue) : Nat :=
  events.foldl (fun total event => total + (detectSecretCategories event).matched) 0

/-! ## What there is to count -/

mutual
/-- The categories of each string outside the fields with secret names, in the order of the search. -/
def leaves : JsValue → List (List String)
  | .string s => [leafCategories s]
  | .array items => leavesItems items
  | .object fields => leavesFields fields
  | _ => []

def leavesItems : List JsValue → List (List String)
  | [] => []
  | item :: rest => leaves item ++ leavesItems rest

def leavesFields : Fields → List (List String)
  | [] => []
  | (key, value) :: rest => (if isSecretFieldName key then [] else leaves value) ++ leavesFields rest
end

section OverSecretFields

variable (count : JsValue → Nat)

mutual
/-- A count over the fields with secret names that lie in no other such field. -/
def overSecretFields : JsValue → Nat
  | .array items => overSecretItems items
  | .object fields => overSecretMembers fields
  | _ => 0

def overSecretItems : List JsValue → Nat
  | [] => 0
  | item :: rest => overSecretFields item + overSecretItems rest

def overSecretMembers : Fields → Nat
  | [] => 0
  | (key, value) :: rest =>
    (if isSecretFieldName key then count value else overSecretFields value) + overSecretMembers rest
end

end OverSecretFields

def isToken (text : String) : Bool := !(leafCategories text).isEmpty

def containsToken (value : JsValue) : Bool := anyString isToken value

mutual
/-- The fields with secret names, at any depth, whose value contains a token. -/
def tokenFields : JsValue → Nat
  | .array items => tokenFieldsItems items
  | .object fields => tokenFieldsMembers fields
  | _ => 0

def tokenFieldsItems : List JsValue → Nat
  | [] => 0
  | item :: rest => tokenFields item + tokenFieldsItems rest

def tokenFieldsMembers : Fields → Nat
  | [] => 0
  | (key, value) :: rest =>
    (if isSecretFieldName key && containsToken value then 1 else 0) + tokenFields value + tokenFieldsMembers rest
end

/-- The tokens outside the fields with secret names, and the fields with secret names that contain one. -/
def tokenCount (event : JsValue) : Nat := labelled (leaves event) + tokenFields event

/-- The fields with secret names inside another one that contain a token. -/
def nestedFields (event : JsValue) : Nat := overSecretFields tokenFields event

/-- The fields with secret names whose value contains a token up to the case of its letters only. -/
def caseOnlyFields (event : JsValue) : Nat :=
  overSecretFields (fun value => if containsSecretPattern value && !containsToken value then 1 else 0) event

/-! ## The search as a count -/

def LEAF_CATEGORIES : List String := tokenCategories.map Prod.snd

theorem leafCategories_subset (text : String) : leafCategories text ⊆ LEAF_CATEGORIES := by
  intro category hCategory
  obtain ⟨entry, hEntry, rfl⟩ := List.mem_map.mp hCategory
  exact List.mem_map_of_mem (List.mem_filter.mp hEntry).1

theorem secretCategory_not_leaf (key : String) : secretCategory key ∉ LEAF_CATEGORIES := by
  unfold secretCategory
  dsimp only
  split_ifs
  all_goals decide

theorem mem_add {categories : List String} {category label : String} :
    label ∈ add categories category ↔ label ∈ categories ∨ label = category := by
  rw [add]
  split
  · rename_i hOld
    constructor
    · exact .inl
    · rintro (hMem | rfl)
      · exact hMem
      · exact hOld
  · simp

theorem mem_foldl_add {labels categories : List String} {label : String} :
    label ∈ labels.foldl add categories ↔ label ∈ categories ∨ label ∈ labels := by
  induction labels generalizing categories with
  | nil => simp
  | cons first rest ih =>
    rw [List.foldl_cons, ih, mem_add, List.mem_cons, or_assoc]

theorem length_le_foldl_add (labels categories : List String) : categories.length ≤ (labels.foldl add categories).length := by
  induction labels generalizing categories with
  | nil => exact Nat.le_refl _
  | cons first rest ih =>
    have hFirst : categories.length ≤ (add categories first).length := by
      rw [add]
      split
      · exact Nat.le_refl _
      · simp
    exact hFirst.trans (ih _)

theorem length_lt_foldl_add {labels categories : List String} :
    categories.length < (labels.foldl add categories).length ↔ ¬labels ⊆ categories := by
  induction labels generalizing categories with
  | nil => simp
  | cons first rest ih =>
    rw [List.foldl_cons, List.cons_subset, not_and_or]
    by_cases hOld : first ∈ categories
    · rw [show add categories first = categories from if_pos hOld, ih]
      simp [hOld]
    · have hLonger : categories.length < (add categories first).length := by
        rw [show add categories first = categories ++ [first] from if_neg hOld, List.length_append, List.length_singleton]
        omega
      exact iff_of_true (hLonger.trans_le (length_le_foldl_add rest _)) (.inl hOld)

/-- What a part of the search does: it meets the leaves and the given number of fields. -/
structure Visits (before after : Found) (sets : List (List String)) (fields : Nat) : Prop where
  labels : ∀ label ∈ sets.flatten, label ∈ LEAF_CATEGORIES
  matched : after.matched = before.matched + news before.categories sets + fields
  categories : ∀ label ∈ LEAF_CATEGORIES, label ∈ after.categories ↔ label ∈ before.categories ++ sets.flatten

theorem Visits.none (found : Found) : Visits found found [] 0 where
  labels _ h := by cases h
  matched := rfl
  categories label _ := by rw [List.flatten_nil, List.append_nil]

theorem Visits.trans {first middle last : Found} {sets others : List (List String)} {m n : Nat}
    (h : Visits first middle sets m) (hNext : Visits middle last others n) : Visits first last (sets ++ others) (m + n) where
  labels label hLabel := by
    rw [List.flatten_append, List.mem_append] at hLabel
    exact hLabel.elim (h.labels label) (hNext.labels label)
  matched := by
    have hSeen : news middle.categories others = news (first.categories ++ sets.flatten) others :=
      news_congr fun label hLabel => h.categories label (hNext.labels label hLabel)
    rw [hNext.matched, h.matched, news_append, hSeen]
    omega
  categories label hLabel := by
    rw [hNext.categories label hLabel, List.mem_append, h.categories label hLabel, List.flatten_append, ← List.append_assoc,
      List.mem_append (s := first.categories ++ sets.flatten)]

theorem visits_leaf (found : Found) (text : String) : Visits found (visitLeaf found text) [leafCategories text] 0 where
  labels label hLabel := by
    rw [List.flatten_singleton] at hLabel
    exact leafCategories_subset text hLabel
  matched := by
    rw [visitLeaf, news, news]
    dsimp only
    by_cases hSeen : leafCategories text ⊆ found.categories
    · rw [if_neg (length_lt_foldl_add.not.mpr (not_not.mpr hSeen)), if_pos hSeen]
      rfl
    · rw [if_pos (length_lt_foldl_add.mpr hSeen), if_neg hSeen]
  categories label _ := by
    rw [visitLeaf, mem_foldl_add, List.flatten_singleton, List.mem_append]

theorem visits_secretField (found : Found) (key : String) (value : JsValue) :
    Visits found (visitSecretField found key value) [] (if containsSecretPattern value then 1 else 0) where
  labels _ h := by cases h
  matched := by
    rw [visitSecretField, news]
    dsimp only
    split
    · rfl
    · rfl
  categories label hLabel := by
    have hOther : label ≠ secretCategory key := fun hSame => secretCategory_not_leaf key (hSame ▸ hLabel)
    rw [visitSecretField, mem_add, List.flatten_nil, List.append_nil]
    exact or_iff_left hOther

def outerMatches (value : JsValue) : Nat := overSecretFields (fun value => if containsSecretPattern value then 1 else 0) value

theorem visits_value (value : JsValue) (found : Found) : Visits found (visit found value) (leaves value) (outerMatches value) := by
  induction value using JsValue.induction generalizing found with
  | undefined => exact .none found
  | null => exact .none found
  | bool _ => exact .none found
  | number _ => exact .none found
  | string s => exact visits_leaf found s
  | array items ih =>
    rw [visit, leaves, outerMatches, overSecretFields]
    induction items generalizing found with
    | nil => exact .none found
    | cons item rest ihRest =>
      rw [visitItems, leavesItems, overSecretItems]
      exact (ih item List.mem_cons_self found).trans
        (ihRest (fun other hOther => ih other (List.mem_cons_of_mem _ hOther)) _)
  | object fields ih =>
    rw [visit, leaves, outerMatches, overSecretFields]
    induction fields generalizing found with
    | nil => exact .none found
    | cons field rest ihRest =>
      obtain ⟨key, value⟩ := field
      rw [visitFields, leavesFields, overSecretMembers]
      refine Visits.trans ?_ (ihRest (fun other hOther => ih other (List.mem_cons_of_mem _ hOther)) _)
      split
      · exact visits_secretField found key value
      · exact ih _ List.mem_cons_self found

theorem matched_eq (event : JsValue) : (detectSecretCategories event).matched = news [] (leaves event) + outerMatches event := by
  have hMatched := (visits_value event .none).matched
  rw [detectSecretCategories, hMatched, Found.none, Nat.zero_add]

/-! ## Tokens and their letter case -/

theorem run_anyCase {β : Type} {text : List Char} {next : List Char → Option β} {cs : List Char}
    (h : ((literal text).run next cs).isSome) :
    ((text.foldr (fun c rest => seq (cls fun d => d.toLower == c.toLower) rest) empty).run next cs).isSome := by
  induction text generalizing cs with
  | nil => exact h
  | cons c rest ih =>
    cases cs with
    | nil =>
      cases rest with
      | nil => cases h
      | cons _ _ => cases h
    | cons d cs =>
      have hHead : d = c ∧ ((literal rest).run next cs).isSome := by
        cases rest with
        | nil =>
          rw [literal, char, run] at h
          split at h
          · rename_i hSame
            exact ⟨by simpa using hSame, h⟩
          · cases h
        | cons e rest =>
          rw [show literal (c :: e :: rest) = seq (char c) (literal (e :: rest)) from rfl, run, char, run] at h
          split at h
          · rename_i hSame
            exact ⟨by simpa using hSame, h⟩
          · cases h
      obtain ⟨rfl, hRest⟩ := hHead
      rw [List.foldr_cons, run, run, if_pos (beq_self_eq_true _)]
      exact ih hRest

theorem isSome_alt {β : Type} {a b : Pattern} {next : List Char → Option β} {cs : List Char} :
    ((alt a b).run next cs).isSome ↔ (a.run next cs).isSome ∨ (b.run next cs).isSome := by
  rw [run]
  cases a.run next cs <;> simp

theorem secretPattern_of_category : ∀ category ∈ tokenCategories, ∀ cs, (category.1.matchPrefix cs).isSome →
    (secretPattern.matchPrefix cs).isSome := by
  simp only [tokenCategories, List.forall_mem_cons, matchPrefix, secretPattern, isSome_alt]
  refine ⟨fun cs h => .inl (run_anyCase h), fun cs h => ?_, fun cs h => .inr (.inr (.inr (.inl h))),
    fun cs h => .inr (.inr (.inr (.inr (run_anyCase h)))), by simp⟩
  cases isSome_alt.mp h with
  | inl hClassic => exact .inr (.inl (run_anyCase hClassic))
  | inr hFine => exact .inr (.inr (.inl (run_anyCase hFine)))

theorem test_secretPattern {text : String} (h : isToken text = true) : test secretPattern text = true := by
  have hNe : leafCategories text ≠ [] := by
    intro hNil
    rw [isToken, hNil] at h
    cases h
  obtain ⟨name, hName⟩ := List.exists_mem_of_ne_nil _ hNe
  obtain ⟨category, hCategory, _⟩ := List.mem_map.mp hName
  obtain ⟨hListed, hTest⟩ := List.mem_filter.mp hCategory
  obtain ⟨rest, hRest, hMatch⟩ := List.any_eq_true.mp hTest
  exact List.any_eq_true.mpr ⟨rest, hRest, secretPattern_of_category category hListed rest hMatch⟩

theorem anyString_mono {holds others : String → Bool} (h : ∀ s, holds s = true → others s = true) {value : JsValue}
    (hValue : anyString holds value = true) : anyString others value = true := by
  induction value using JsValue.induction with
  | undefined => cases hValue
  | null => cases hValue
  | bool _ => cases hValue
  | number _ => cases hValue
  | string s => exact h s hValue
  | array items ih =>
    rw [anyString] at hValue ⊢
    induction items with
    | nil => cases hValue
    | cons item rest ihRest =>
      rw [anyStringItems, Bool.or_eq_true] at hValue ⊢
      exact hValue.imp (ih item List.mem_cons_self) (ihRest fun other hOther => ih other (List.mem_cons_of_mem _ hOther))
  | object fields ih =>
    rw [anyString] at hValue ⊢
    induction fields with
    | nil => cases hValue
    | cons field rest ihRest =>
      rw [anyStringFields, Bool.or_eq_true] at hValue ⊢
      exact hValue.imp (ih field List.mem_cons_self) (ihRest fun other hOther => ih other (List.mem_cons_of_mem _ hOther))

theorem overSecretFields_add {count first second : JsValue → Nat} (h : ∀ value, count value = first value + second value)
    (value : JsValue) : overSecretFields count value = overSecretFields first value + overSecretFields second value := by
  induction value using JsValue.induction with
  | undefined => rfl
  | null => rfl
  | bool _ => rfl
  | number _ => rfl
  | string _ => rfl
  | array items ih =>
    rw [overSecretFields, overSecretFields, overSecretFields]
    induction items with
    | nil => rfl
    | cons item rest ihRest =>
      have hItem := ih item List.mem_cons_self
      have hRest := ihRest fun other hOther => ih other (List.mem_cons_of_mem _ hOther)
      rw [overSecretItems, overSecretItems, overSecretItems]
      omega
  | object fields ih =>
    rw [overSecretFields, overSecretFields, overSecretFields]
    induction fields with
    | nil => rfl
    | cons field rest ihRest =>
      obtain ⟨key, value⟩ := field
      have hValue : overSecretFields count value = overSecretFields first value + overSecretFields second value :=
        ih (key, value) List.mem_cons_self
      have hRest := ihRest fun other hOther => ih other (List.mem_cons_of_mem _ hOther)
      rw [overSecretMembers, overSecretMembers, overSecretMembers, hRest]
      split
      · rw [h value]
        omega
      · omega

/-- The fields with secret names that contain a token, none of them inside another such field. -/
def outerTokenFields (event : JsValue) : Nat := overSecretFields (fun value => if containsToken value then 1 else 0) event

theorem outerMatches_eq (event : JsValue) : outerMatches event = outerTokenFields event + caseOnlyFields event := by
  refine overSecretFields_add (fun value => ?_) event
  by_cases hToken : containsToken value = true
  · have hPattern : containsSecretPattern value = true := anyString_mono (fun _ => test_secretPattern) hToken
    rw [hToken, hPattern]
    rfl
  · rw [Bool.not_eq_true] at hToken
    rw [hToken]
    simp

theorem tokenFields_eq (event : JsValue) : tokenFields event = outerTokenFields event + nestedFields event := by
  have hOver : tokenFields event =
      overSecretFields (fun value => (if containsToken value then 1 else 0) + tokenFields value) event := by
    induction event using JsValue.induction with
    | undefined => rfl
    | null => rfl
    | bool _ => rfl
    | number _ => rfl
    | string _ => rfl
    | array items ih =>
      rw [tokenFields, overSecretFields]
      induction items with
      | nil => rfl
      | cons item rest ihRest =>
        rw [tokenFieldsItems, overSecretItems, ih item List.mem_cons_self,
          ihRest fun other hOther => ih other (List.mem_cons_of_mem _ hOther)]
    | object fields ih =>
      rw [tokenFields, overSecretFields]
      induction fields with
      | nil => rfl
      | cons field rest ihRest =>
        obtain ⟨key, value⟩ := field
        rw [tokenFieldsMembers, overSecretMembers, ihRest fun other hOther => ih other (List.mem_cons_of_mem _ hOther)]
        by_cases hSecret : isSecretFieldName key = true
        · rw [hSecret, if_pos rfl, Bool.true_and]
        · rw [Bool.not_eq_true] at hSecret
          rw [hSecret, ← ih (key, value) List.mem_cons_self]
          simp
  rw [hOver]
  exact overSecretFields_add (fun _ => rfl) event

theorem matched_add_repeats (event : JsValue) : (detectSecretCategories event).matched + (repeats [] (leaves event) + nestedFields event) =
    tokenCount event + caseOnlyFields event := by
  have hMatched := matched_eq event
  have hOuter := outerMatches_eq event
  have hFields := tokenFields_eq event
  have hNews := news_add_repeats [] (leaves event)
  rw [tokenCount]
  omega

/-! ## The order of fields and items -/

/-- One list of items or members in another order, at any place of the value. -/
inductive Swap : JsValue → JsValue → Prop
  | items {items others : List JsValue} (h : items.Perm others) : Swap (.array items) (.array others)
  | fields {fields others : Fields} (h : fields.Perm others) : Swap (.object fields) (.object others)
  | item (before after : List JsValue) {value other : JsValue} (h : Swap value other) :
      Swap (.array (before ++ value :: after)) (.array (before ++ other :: after))
  | field (before : Fields) (key : String) (after : Fields) {value other : JsValue} (h : Swap value other) :
      Swap (.object (before ++ (key, value) :: after)) (.object (before ++ (key, other) :: after))

def Reordered : JsValue → JsValue → Prop := Relation.ReflTransGen Swap

theorem Reordered.congr {α : Type} {f : JsValue → α} (h : ∀ value other, Swap value other → f value = f other)
    {value other : JsValue} (hReordered : Reordered value other) : f value = f other := by
  induction hReordered with
  | refl => rfl
  | tail _ hSwap ih => exact ih.trans (h _ _ hSwap)

theorem leavesItems_eq (items : List JsValue) : leavesItems items = items.flatMap leaves := by
  induction items with
  | nil => rfl
  | cons item rest ih => rw [leavesItems, ih, List.flatMap_cons]

def memberLeaves (field : String × JsValue) : List (List String) := if isSecretFieldName field.1 then [] else leaves field.2

theorem leavesFields_eq (fields : Fields) : leavesFields fields = fields.flatMap memberLeaves := by
  induction fields with
  | nil => rfl
  | cons field rest ih => rw [leavesFields, ih, List.flatMap_cons, memberLeaves]

theorem leaves_swap {value other : JsValue} (h : Swap value other) : (leaves value).Perm (leaves other) := by
  induction h with
  | items h =>
    rw [leaves, leaves, leavesItems_eq, leavesItems_eq]
    exact h.flatMap_right leaves
  | fields h =>
    rw [leaves, leaves, leavesFields_eq, leavesFields_eq]
    exact h.flatMap_right memberLeaves
  | item before after _ ih =>
    rw [leaves, leaves, leavesItems_eq, leavesItems_eq, List.flatMap_append, List.flatMap_append, List.flatMap_cons,
      List.flatMap_cons]
    exact (ih.append_right _).append_left _
  | field before key after _ ih =>
    rw [leaves, leaves, leavesFields_eq, leavesFields_eq, List.flatMap_append, List.flatMap_append, List.flatMap_cons,
      List.flatMap_cons]
    refine (List.Perm.append_right _ ?_).append_left _
    rw [memberLeaves, memberLeaves]
    dsimp only
    split
    · exact .refl _
    · exact ih

theorem leaves_reordered {value other : JsValue} (h : Reordered value other) : (leaves value).Perm (leaves other) := by
  induction h with
  | refl => exact .refl _
  | tail _ hSwap ih => exact ih.trans (leaves_swap hSwap)

section Strings

variable (holds : String → Bool)

theorem anyStringItems_eq (items : List JsValue) : anyStringItems holds items = items.any (anyString holds) := by
  induction items with
  | nil => rfl
  | cons item rest ih => rw [anyStringItems, ih, List.any_cons]

theorem anyStringFields_eq (fields : Fields) : anyStringFields holds fields = fields.any fun field => anyString holds field.2 := by
  induction fields with
  | nil => rfl
  | cons field rest ih => rw [anyStringFields, ih, List.any_cons]

theorem anyString_swap {value other : JsValue} (h : Swap value other) : anyString holds value = anyString holds other := by
  induction h with
  | items h =>
    rw [anyString, anyString, anyStringItems_eq, anyStringItems_eq]
    exact h.any_eq
  | fields h =>
    rw [anyString, anyString, anyStringFields_eq, anyStringFields_eq]
    exact h.any_eq
  | item before after _ ih =>
    rw [anyString, anyString, anyStringItems_eq, anyStringItems_eq, List.any_append, List.any_append, List.any_cons,
      List.any_cons, ih]
  | field before key after _ ih =>
    rw [anyString, anyString, anyStringFields_eq, anyStringFields_eq, List.any_append, List.any_append, List.any_cons,
      List.any_cons, ih]

end Strings

def total {α : Type} (count : α → Nat) : List α → Nat
  | [] => 0
  | entry :: rest => count entry + total count rest

section Totals

variable {α : Type} (count : α → Nat)

theorem total_perm {entries others : List α} (h : entries.Perm others) : total count entries = total count others := by
  induction h with
  | nil => rfl
  | cons entry _ ih => rw [total, total, ih]
  | swap entry entry' rest =>
    rw [total, total, total, total]
    omega
  | trans _ _ ih ih' => exact ih.trans ih'

theorem total_middle {entry other : α} (h : count entry = count other) (before after : List α) :
    total count (before ++ entry :: after) = total count (before ++ other :: after) := by
  induction before with
  | nil => rw [List.nil_append, List.nil_append, total, total, h]
  | cons first rest ih => rw [List.cons_append, List.cons_append, total, total, ih]

end Totals

section SecretFields

variable {count : JsValue → Nat}

def memberCount (count : JsValue → Nat) (field : String × JsValue) : Nat :=
  if isSecretFieldName field.1 then count field.2 else overSecretFields count field.2

theorem overSecretItems_eq (items : List JsValue) : overSecretItems count items = total (overSecretFields count) items := by
  induction items with
  | nil => rfl
  | cons item rest ih => rw [overSecretItems, total, ih]

theorem overSecretMembers_eq (fields : Fields) : overSecretMembers count fields = total (memberCount count) fields := by
  induction fields with
  | nil => rfl
  | cons field rest ih =>
    rw [overSecretMembers, total, ih]
    rfl

theorem overSecretFields_swap (hCount : ∀ value other, Swap value other → count value = count other) {value other : JsValue}
    (h : Swap value other) : overSecretFields count value = overSecretFields count other := by
  induction h with
  | items h =>
    rw [overSecretFields, overSecretFields, overSecretItems_eq, overSecretItems_eq]
    exact total_perm _ h
  | fields h =>
    rw [overSecretFields, overSecretFields, overSecretMembers_eq, overSecretMembers_eq]
    exact total_perm _ h
  | item before after _ ih =>
    rw [overSecretFields, overSecretFields, overSecretItems_eq, overSecretItems_eq]
    exact total_middle _ ih before after
  | field before key after hSwap ih =>
    rw [overSecretFields, overSecretFields, overSecretMembers_eq, overSecretMembers_eq]
    refine total_middle _ ?_ before after
    rw [memberCount, memberCount, ih, hCount _ _ hSwap]

def memberTokens (field : String × JsValue) : Nat :=
  (if isSecretFieldName field.1 && containsToken field.2 then 1 else 0) + tokenFields field.2

theorem tokenFieldsItems_eq (items : List JsValue) : tokenFieldsItems items = total tokenFields items := by
  induction items with
  | nil => rfl
  | cons item rest ih => rw [tokenFieldsItems, total, ih]

theorem tokenFieldsMembers_eq (fields : Fields) : tokenFieldsMembers fields = total memberTokens fields := by
  induction fields with
  | nil => rfl
  | cons field rest ih => rw [tokenFieldsMembers, total, ih, memberTokens]

theorem tokenFields_swap {value other : JsValue} (h : Swap value other) : tokenFields value = tokenFields other := by
  induction h with
  | items h =>
    rw [tokenFields, tokenFields, tokenFieldsItems_eq, tokenFieldsItems_eq]
    exact total_perm _ h
  | fields h =>
    rw [tokenFields, tokenFields, tokenFieldsMembers_eq, tokenFieldsMembers_eq]
    exact total_perm _ h
  | item before after _ ih =>
    rw [tokenFields, tokenFields, tokenFieldsItems_eq, tokenFieldsItems_eq]
    exact total_middle _ ih before after
  | field before key after hSwap ih =>
    rw [tokenFields, tokenFields, tokenFieldsMembers_eq, tokenFieldsMembers_eq]
    refine total_middle _ ?_ before after
    rw [memberTokens, memberTokens, ih, containsToken, containsToken, anyString_swap _ hSwap]

theorem nestedFields_swap {value other : JsValue} (h : Swap value other) : nestedFields value = nestedFields other :=
  overSecretFields_swap (fun _ _ => tokenFields_swap) h

theorem caseOnlyFields_swap {value other : JsValue} (h : Swap value other) : caseOnlyFields value = caseOnlyFields other := by
  refine overSecretFields_swap (fun inner changed hSwap => ?_) h
  rw [containsSecretPattern, containsSecretPattern, containsToken, containsToken, anyString_swap _ hSwap, anyString_swap _ hSwap]

theorem tokenCount_reordered {value other : JsValue} (h : Reordered value other) : tokenCount value = tokenCount other := by
  rw [tokenCount, tokenCount, labelled_perm (leaves_reordered h), h.congr fun _ _ => tokenFields_swap]

end SecretFields

/-! ## A leaf can come last -/

theorem Reordered.item (before after : List JsValue) {value other : JsValue} (h : Reordered value other) :
    Reordered (.array (before ++ value :: after)) (.array (before ++ other :: after)) := by
  induction h with
  | refl => exact .refl
  | tail _ hSwap ih => exact ih.tail (.item before after hSwap)

theorem Reordered.field (before : Fields) (key : String) (after : Fields) {value other : JsValue} (h : Reordered value other) :
    Reordered (.object (before ++ (key, value) :: after)) (.object (before ++ (key, other) :: after)) := by
  induction h with
  | refl => exact .refl
  | tail _ hSwap ih => exact ih.tail (.field before key after hSwap)

theorem perm_last {α : Type} (before after : List α) (entry : α) : (before ++ entry :: after).Perm (before ++ after ++ [entry]) :=
  List.perm_middle.trans (List.perm_append_singleton entry (before ++ after)).symm

theorem exists_last (value : JsValue) {labels : List String} (h : labels ∈ leaves value) :
    ∃ other before, Reordered value other ∧ leaves other = before ++ [labels] := by
  induction value using JsValue.induction with
  | undefined => cases h
  | null => cases h
  | bool _ => cases h
  | number _ => cases h
  | string s =>
    rw [leaves, List.mem_singleton] at h
    exact ⟨.string s, [], .refl, by rw [leaves, h]; rfl⟩
  | array items ih =>
    rw [leaves, leavesItems_eq, List.mem_flatMap] at h
    obtain ⟨item, hItem, hLabels⟩ := h
    obtain ⟨other, before, hOther, hLeaves⟩ := ih item hItem hLabels
    obtain ⟨first, last, rfl⟩ := List.append_of_mem hItem
    refine ⟨.array (first ++ last ++ [other]), leavesItems (first ++ last) ++ before,
      .head (.items (perm_last first last item)) (Reordered.item _ _ hOther), ?_⟩
    rw [leaves, leavesItems_eq, leavesItems_eq, List.flatMap_append, List.flatMap_singleton, hLeaves, List.append_assoc]
  | object fields ih =>
    rw [leaves, leavesFields_eq, List.mem_flatMap] at h
    obtain ⟨⟨key, value⟩, hField, hLabels⟩ := h
    rw [memberLeaves] at hLabels
    dsimp only at hLabels
    split at hLabels
    · cases hLabels
    · rename_i hPlain
      obtain ⟨other, before, hOther, hLeaves⟩ := ih (key, value) hField hLabels
      obtain ⟨first, last, rfl⟩ := List.append_of_mem hField
      refine ⟨.object (first ++ last ++ [(key, other)]), leavesFields (first ++ last) ++ before,
        .head (.fields (perm_last first last (key, value))) (Reordered.field _ _ _ hOther), ?_⟩
      have hMember : memberLeaves (key, other) = leaves other := if_neg hPlain
      rw [leaves, leavesFields_eq, leavesFields_eq, List.flatMap_append, List.flatMap_singleton, hMember, hLeaves,
        List.append_assoc]

theorem own_iff_repeats (event : JsValue) : Own (leaves event) ↔ ∀ other, Reordered event other → repeats [] (leaves other) = 0 := by
  constructor
  · intro hOwn other hOther
    have hOther : Own ([] ++ leaves other) := hOwn.perm (leaves_reordered hOther)
    exact repeats_eq_zero hOther
  · intro hNone before labels after hSplit hNe
    by_contra hShared
    have hCovered : labels ⊆ (before ++ after).flatten := by
      intro label hLabel
      by_contra hAbsent
      exact hShared ⟨label, hLabel, hAbsent⟩
    obtain ⟨other, first, hOther, hLeaves⟩ := exists_last event (hSplit ▸ List.mem_append_right before List.mem_cons_self)
    have hPerm : (before ++ after).Perm first := by
      have hAll : (before ++ labels :: after).Perm (first ++ [labels]) := by
        rw [← hSplit, ← hLeaves]
        exact leaves_reordered hOther
      exact (List.perm_middle.symm.trans (hAll.trans (List.perm_append_singleton labels first))).cons_inv
    have hLast := repeats_last [] first hNe fun label hLabel => by
      obtain ⟨set, hSet, hMem⟩ := List.mem_flatten.mp (hCovered hLabel)
      exact List.mem_flatten.mpr ⟨set, hPerm.mem_iff.mp hSet, hMem⟩
    have hZero := hNone other hOther
    rw [hLeaves] at hZero
    omega

/-! ## When the matches are counted -/

theorem foldl_secretMatches (events : List JsValue) (start : Nat) :
    events.foldl (fun found event => found + (detectSecretCategories event).matched) start = start + secretMatches events := by
  induction events generalizing start with
  | nil => rfl
  | cons event rest ih =>
    rw [secretMatches, List.foldl_cons, List.foldl_cons, ih, ih]
    omega

theorem secretMatches_append (left right : List JsValue) : secretMatches (left ++ right) = secretMatches left + secretMatches right := by
  rw [secretMatches, List.foldl_append, foldl_secretMatches]
  rfl

/-- The matches of two lists add up, and those of the event are counted in every order of its fields and items. -/
def CountsMatches (event : JsValue) : Prop :=
  (∀ left right, secretMatches (left ++ right) = secretMatches left + secretMatches right) ∧
    ∀ other, Reordered event other → (detectSecretCategories other).matched = tokenCount event

/-- Every token has a category of its own and the fields with secret names are told apart; or the errors cancel in every
order. -/
def CategoriesTellApart (event : JsValue) : Prop :=
  (caseOnlyFields event = 0 ∧ nestedFields event = 0 ∧ Own (leaves event)) ∨
    (0 < caseOnlyFields event ∧ ∀ other, Reordered event other → repeats [] (leaves other) + nestedFields event = caseOnlyFields event)

theorem matched_reordered_iff {event other : JsValue} (h : Reordered event other) :
    (detectSecretCategories other).matched = tokenCount event ↔
      repeats [] (leaves other) + nestedFields event = caseOnlyFields event := by
  have hBalance := matched_add_repeats other
  have hTokens := tokenCount_reordered h
  have hNested := h.congr fun _ _ => nestedFields_swap
  have hCaseOnly := h.congr fun _ _ => caseOnlyFields_swap
  omega

theorem countsMatches_iff (event : JsValue) : CountsMatches event ↔ CategoriesTellApart event := by
  have hOrders : CountsMatches event ↔
      ∀ other, Reordered event other → repeats [] (leaves other) + nestedFields event = caseOnlyFields event := by
    rw [CountsMatches, and_iff_right secretMatches_append]
    exact forall₂_congr fun _ hOther => matched_reordered_iff hOther
  rw [hOrders, CategoriesTellApart, own_iff_repeats]
  constructor
  · intro hBalanced
    cases Nat.eq_zero_or_pos (caseOnlyFields event) with
    | inl hNone =>
      have hSelf := hBalanced event .refl
      refine .inl ⟨hNone, by omega, fun other hOther => ?_⟩
      have hOther := hBalanced other hOther
      omega
    | inr hSome => exact .inr ⟨hSome, hBalanced⟩
  · rintro (⟨hNone, hNested, hOwn⟩ | ⟨_, hBalanced⟩) other hOther
    · rw [hNone, hNested, hOwn other hOther]
    · exact hBalanced other hOther

def twoKeys : JsValue := .object [("request", .object [("first", .string "sk_live_a"), ("second", .string "sk_live_b")])]

theorem twoKeys_counted_once : ¬CountsMatches twoKeys := by
  intro h
  have hCounts : (detectSecretCategories twoKeys).matched = 1 ∧ tokenCount twoKeys = 2 := by decide +kernel
  have hSame := h.2 twoKeys .refl
  omega

end GhostApi.Evidence
