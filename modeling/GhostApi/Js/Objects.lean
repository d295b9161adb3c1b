import GhostApi.Js.Value
import GhostApi.Lib.Table
import Mathlib.Data.List.Nodup

/-!
# Objects as lists of members

Object.fromEntries, property lookup and the two orders in which the program
sorts names: by code unit, and by String.localeCompare. What localeCompare
answers depends on the locale of the host, so a Collation is any total order
of comparison results. The order in which an engine lists integer-like names
is not modelled; members stay where they were inserted.
-/

namespace Js

/-- The verdicts of left.localeCompare(right) ≤ 0 in some locale. -/
structure Collation where
  le : String → String → Bool
  trans : ∀ a b c, le a b = true → le b c = true → le a c = true
  total : ∀ a b, (le a b || le b a) = true

section Sorting

variable {α : Type}

/-- items.sort((left, right) => key(left).localeCompare(key(right))) -/
def Collation.sortBy (collation : Collation) (key : α → String) (items : List α) : List α :=
  items.mergeSort fun a b => collation.le (key a) (key b)

/-- entries.sort(([left], [right]) => left.localeCompare(right)) -/
def Collation.sortEntries (collation : Collation) (entries : List (String × α)) : List (String × α) :=
  collation.sortBy Prod.fst entries

/-- Members in the order of Array.sort on their names. -/
def sortByName (entries : List (String × α)) : List (String × α) :=
  entries.mergeSort fun a b => Json.keyLe a.1 b.1

/-- Array.sort on strings. -/
def sortNames (names : List String) : List String := names.mergeSort Json.keyLe

end Sorting

/-! ## The order of code units -/

namespace Json

theorem utf16_ne_nil (c : Char) : utf16 c ≠ [] := by
  rw [utf16]
  split <;> simp

theorem toNat_lt (c : Char) : c.toNat < 0x110000 ∧ (c.toNat < 0xd800 ∨ 0xdfff < c.toNat) := by
  have hValid : c.val.toNat < 0xd800 ∨ 0xdfff < c.val.toNat ∧ c.val.toNat < 0x110000 := c.valid
  change c.val.toNat < 0x110000 ∧ (c.val.toNat < 0xd800 ∨ 0xdfff < c.val.toNat)
  omega

theorem utf16_append_inj {c d : Char} {xs ys : List Nat} (h : utf16 c ++ xs = utf16 d ++ ys) :
    c = d ∧ xs = ys := by
  have hc := toNat_lt c
  have hd := toNat_lt d
  have hSmall : ∀ e : Char, e.val < 0x10000 ↔ e.toNat < 0x10000 := fun e => UInt32.lt_iff_toNat_lt
  simp only [utf16, hSmall] at h
  -- a surrogate is no code unit of the basic plane
  split_ifs at h with hc' hd' hd'
  · simp only [List.cons_append, List.nil_append, List.cons.injEq] at h
    exact ⟨Char.toNat_inj.mp h.1, h.2⟩
  · simp only [List.cons_append, List.nil_append, List.cons.injEq] at h
    omega
  · simp only [List.cons_append, List.nil_append, List.cons.injEq] at h
    omega
  · simp only [List.cons_append, List.nil_append, List.cons.injEq] at h
    obtain ⟨hHigh, hLow, hRest⟩ := h
    exact ⟨Char.toNat_inj.mp (by omega), hRest⟩

theorem flatMap_utf16_injective {cs ds : List Char} (h : cs.flatMap utf16 = ds.flatMap utf16) : cs = ds := by
  induction cs generalizing ds with
  | nil =>
    cases ds with
    | nil => rfl
    | cons d ds => simp [utf16_ne_nil] at h
  | cons c cs ih =>
    cases ds with
    | nil => simp [utf16_ne_nil] at h
    | cons d ds =>
      rw [List.flatMap_cons, List.flatMap_cons] at h
      obtain ⟨rfl, hRest⟩ := utf16_append_inj h
      rw [ih hRest]

theorem keyLe_trans (a b c : String) (hab : keyLe a b = true) (hbc : keyLe b c = true) : keyLe a c = true := by
  simp only [keyLe, Bool.not_eq_true', List.lex_eq_false_iff_ge] at *
  exact List.le_trans hab hbc

theorem keyLe_total (a b : String) : (keyLe a b || keyLe b a) = true := by
  simp only [keyLe, Bool.or_eq_true, Bool.not_eq_true', List.lex_eq_false_iff_ge]
  exact List.le_total _ _

theorem keyLe_antisymm {a b : String} (hab : keyLe a b = true) (hba : keyLe b a = true) : a = b := by
  simp only [keyLe, Bool.not_eq_true', List.lex_eq_false_iff_ge] at *
  exact String.toList_inj.mp (flatMap_utf16_injective (List.le_antisymm hab hba))

end Json

/-- The order of Array.sort, as one possible collation. -/
def Collation.codeUnits : Collation where
  le := Json.keyLe
  trans := Json.keyLe_trans
  total := Json.keyLe_total

/-! ## Property lookup -/

section Members

variable {α β : Type} {fields : List (String × α)} {key : String} {value : α}

def keys (fields : List (String × α)) : List String := fields.map Prod.fst

theorem keys_cons (field : String × α) (fields : List (String × α)) : keys (field :: fields) = field.1 :: keys fields :=
  rfl

theorem mem_of_lookup (h : fields.lookup key = some value) : (key, value) ∈ fields := by
  induction fields with
  | nil => cases h
  | cons field fields ih =>
    obtain ⟨name, other⟩ := field
    rw [List.lookup_cons] at h
    split at h
    · rename_i hName
      cases h
      rw [beq_iff_eq.mp hName]
      exact List.mem_cons_self
    · exact List.mem_cons_of_mem _ (ih h)

theorem lookup_of_mem (hNodup : (keys fields).Nodup) (h : (key, value) ∈ fields) :
    fields.lookup key = some value := by
  induction fields with
  | nil => cases h
  | cons field fields ih =>
    obtain ⟨name, other⟩ := field
    rw [keys, List.map_cons, List.nodup_cons] at hNodup
    rw [List.lookup_cons]
    rcases List.mem_cons.mp h with hHead | hTail
    · cases hHead
      simp
    · have hOther : (key == name) = false := by
        rw [beq_eq_false_iff_ne]
        rintro rfl
        have hMem : key ∈ keys fields := List.mem_map_of_mem (f := Prod.fst) hTail
        exact hNodup.1 hMem
      rw [hOther]
      exact ih hNodup.2 hTail

theorem lookup_eq_none : fields.lookup key = none ↔ key ∉ keys fields := by
  simp only [List.lookup_eq_none_iff, keys, List.mem_map, Prod.exists, exists_and_right, exists_eq_right,
    not_exists, Prod.forall, bne_iff_ne]
  constructor
  · intro h value hMem
    exact h key value hMem rfl
  · rintro h name value hMem rfl
    exact h value hMem

theorem lookup_isSome : (fields.lookup key).isSome ↔ key ∈ keys fields := by
  rw [← Option.ne_none_iff_isSome, Ne, lookup_eq_none, not_not]

theorem lookup_map (f : α → β) (fields : List (String × α)) (key : String) :
    (fields.map fun field => (field.1, f field.2)).lookup key = (fields.lookup key).map f := by
  induction fields with
  | nil => rfl
  | cons field fields ih =>
    rw [List.map_cons, List.lookup_cons, List.lookup_cons, ih]
    split <;> rfl

theorem keys_map (f : α → β) (fields : List (String × α)) :
    keys (fields.map fun field => (field.1, f field.2)) = keys fields := by
  simp [keys]

theorem lookup_tabulate (f : String → α) (names : List String) (key : String) :
    (names.map fun name => (name, f name)).lookup key = if key ∈ names then some (f key) else none := by
  induction names with
  | nil => rfl
  | cons name names ih =>
    rw [List.map_cons, List.lookup_cons, ih]
    by_cases hName : key = name
    · simp [hName]
    · rw [beq_eq_false_iff_ne.mpr hName]
      simp [hName]

theorem keys_tabulate (f : String → α) (names : List String) : keys (names.map fun name => (name, f name)) = names := by
  simp [keys, Function.comp_def]

theorem lookup_perm {others : List (String × α)} (hNodup : (keys fields).Nodup) (h : fields.Perm others)
    (key : String) : others.lookup key = fields.lookup key := by
  have hOthers : (keys others).Nodup := (h.map _).nodup_iff.mp hNodup
  rcases hLookup : fields.lookup key with _ | value
  · rw [lookup_eq_none] at hLookup ⊢
    exact fun hMem => hLookup ((h.map _).mem_iff.mpr hMem)
  · exact lookup_of_mem hOthers (h.mem_iff.mp (mem_of_lookup hLookup))

end Members

/-! ## Object.fromEntries -/

section FromEntries

variable {α β : Type}

def setMember (object : List (String × α)) (entry : String × α) : List (String × α) :=
  Table.upsert (fun member => member.1 == entry.1) entry object

/-- A repeated name keeps its first place and its last value. -/
def fromEntries (entries : List (String × α)) : List (String × α) := entries.foldl setMember []

theorem setMember_cons_same {entry member : String × α} (h : member.1 = entry.1) (object : List (String × α)) :
    setMember (member :: object) entry = entry :: object := by
  have hSame : (fun other : String × α => other.1 == entry.1) member = true := beq_iff_eq.mpr h
  exact Table.upsert_cons_pos hSame

theorem setMember_cons_other {entry member : String × α} (h : member.1 ≠ entry.1) (object : List (String × α)) :
    setMember (member :: object) entry = member :: setMember object entry := by
  have hOther : (fun other : String × α => other.1 == entry.1) member = false := beq_eq_false_iff_ne.mpr h
  exact Table.upsert_cons_neg hOther

theorem keys_setMember (object : List (String × α)) (entry : String × α) :
    keys (setMember object entry) = if entry.1 ∈ keys object then keys object else keys object ++ [entry.1] := by
  induction object with
  | nil => rfl
  | cons member object ih =>
    by_cases hSame : member.1 = entry.1
    · rw [setMember_cons_same hSame]
      simp [keys, hSame]
    · rw [setMember_cons_other hSame, keys, List.map_cons, ← keys, ih]
      by_cases hMem : entry.1 ∈ keys object
      · rw [keys_cons, if_pos hMem, if_pos (List.mem_cons_of_mem _ hMem)]
      · rw [keys_cons, if_neg hMem, if_neg fun h => hMem ((List.mem_cons.mp h).resolve_left (Ne.symm hSame))]
        rfl

theorem setMember_nodup {object : List (String × α)} {entry : String × α} (h : (keys object).Nodup) :
    (keys (setMember object entry)).Nodup := by
  rw [keys_setMember]
  split
  · exact h
  · rename_i hNew
    rw [List.nodup_append]
    refine ⟨h, by simp, ?_⟩
    rintro a ha b hb rfl
    rw [List.mem_singleton] at hb
    exact hNew (hb ▸ ha)

theorem foldl_setMember_nodup {entries object : List (String × α)} (h : (keys object).Nodup) :
    (keys (entries.foldl setMember object)).Nodup := by
  induction entries generalizing object with
  | nil => exact h
  | cons entry entries ih => exact ih (setMember_nodup h)

theorem fromEntries_nodup (entries : List (String × α)) : (keys (fromEntries entries)).Nodup :=
  foldl_setMember_nodup List.nodup_nil

theorem setMember_new {object : List (String × α)} {entry : String × α} (h : entry.1 ∉ keys object) :
    setMember object entry = object ++ [entry] := by
  rw [setMember, Table.upsert, if_neg]
  rw [List.any_eq_true]
  rintro ⟨member, hMem, hSame⟩
  exact h (beq_iff_eq.mp hSame ▸ List.mem_map_of_mem hMem)

theorem foldl_setMember_append {entries object : List (String × α)} (h : (keys (object ++ entries)).Nodup) :
    entries.foldl setMember object = object ++ entries := by
  induction entries generalizing object with
  | nil => simp
  | cons entry entries ih =>
    have hNew : entry.1 ∉ keys object := by
      intro hMem
      rw [keys, List.map_append, List.nodup_append] at h
      exact h.2.2 _ hMem _ (by simp) rfl
    rw [List.foldl_cons, setMember_new hNew, ih (by simpa using h), List.append_assoc, List.singleton_append]

theorem fromEntries_eq_self {entries : List (String × α)} (h : (keys entries).Nodup) :
    fromEntries entries = entries := by
  rw [fromEntries, foldl_setMember_append (by simpa using h), List.nil_append]

theorem lookup_setMember (object : List (String × α)) (entry : String × α) (key : String) :
    (setMember object entry).lookup key = if key = entry.1 then some entry.2 else object.lookup key := by
  induction object with
  | nil =>
    rw [setMember_new List.not_mem_nil, List.nil_append, List.lookup_cons]
    by_cases hKey : key = entry.1
    · simp [hKey]
    · rw [beq_eq_false_iff_ne.mpr hKey, if_neg hKey]
  | cons member object ih =>
    by_cases hSame : member.1 = entry.1
    · rw [setMember_cons_same hSame, List.lookup_cons, List.lookup_cons, hSame]
      by_cases hKey : key = entry.1
      · simp [hKey]
      · rw [beq_eq_false_iff_ne.mpr hKey, if_neg hKey]
    · rw [setMember_cons_other hSame, List.lookup_cons, List.lookup_cons, ih]
      by_cases hKey : key = member.1
      · have hOther : ¬key = entry.1 := fun h => hSame (hKey.symm.trans h)
        rw [if_neg hOther, if_neg hOther]
      · rw [beq_eq_false_iff_ne.mpr hKey]

theorem mem_setMember {object : List (String × α)} {entry member : String × α}
    (h : member ∈ setMember object entry) : member = entry ∨ member ∈ object :=
  Table.eq_or_mem_of_mem_upsert h

theorem mem_of_mem_foldl_setMember {entries object : List (String × α)} {member : String × α}
    (h : member ∈ entries.foldl setMember object) : member ∈ object ∨ member ∈ entries := by
  induction entries generalizing object with
  | nil => exact .inl h
  | cons entry entries ih =>
    rcases ih h with hMem | hMem
    · rcases mem_setMember hMem with rfl | hMem
      · exact .inr List.mem_cons_self
      · exact .inl hMem
    · exact .inr (List.mem_cons_of_mem _ hMem)

theorem mem_of_mem_fromEntries {entries : List (String × α)} {member : String × α}
    (h : member ∈ fromEntries entries) : member ∈ entries := by
  rcases mem_of_mem_foldl_setMember h with h | h
  · cases h
  · exact h

theorem mem_keys_foldl_setMember {entries object : List (String × α)} {key : String} :
    key ∈ keys (entries.foldl setMember object) ↔ key ∈ keys object ∨ key ∈ keys entries := by
  induction entries generalizing object with
  | nil => simp [keys]
  | cons entry entries ih =>
    rw [List.foldl_cons, ih, keys_setMember]
    split
    · rename_i hMem
      simp only [keys, List.map_cons, List.mem_cons]
      constructor
      · exact Or.imp_right .inr
      · rintro (h | rfl | h)
        · exact .inl h
        · exact .inl hMem
        · exact .inr h
    · simp [keys, or_assoc]

theorem mem_keys_fromEntries {entries : List (String × α)} {key : String} :
    key ∈ keys (fromEntries entries) ↔ key ∈ keys entries := by
  rw [fromEntries, mem_keys_foldl_setMember]
  simp [keys]

theorem keys_foldl_setMember_sublist {entries object : List (String × α)} :
    (keys (entries.foldl setMember object)).Sublist (keys object ++ keys entries) := by
  induction entries generalizing object with
  | nil => simp [keys]
  | cons entry entries ih =>
    rw [List.foldl_cons]
    refine ih.trans ?_
    rw [keys_setMember]
    split
    · exact List.Sublist.append (List.Sublist.refl _) (List.sublist_cons_self _ _)
    · simp [keys]

theorem keys_fromEntries_sublist (entries : List (String × α)) :
    (keys (fromEntries entries)).Sublist (keys entries) := by
  have h : (keys (entries.foldl setMember [])).Sublist (keys [] ++ keys entries) := keys_foldl_setMember_sublist
  simpa [keys, fromEntries] using h

end FromEntries

/-! ## Sorted objects -/

section Sorted

variable {α : Type} (collation : Collation)

/-- The names stand in the order that sortEntries gives them. -/
def Collation.Sorted (names : List String) : Prop := names.Pairwise fun a b => collation.le a b = true

theorem Collation.sortBy_perm (key : α → String) (items : List α) : (collation.sortBy key items).Perm items :=
  List.mergeSort_perm _ _

theorem Collation.pairwise_sortBy (key : α → String) (items : List α) :
    (collation.sortBy key items).Pairwise fun a b => collation.le (key a) (key b) = true :=
  List.pairwise_mergeSort (fun a b c => collation.trans (key a) (key b) (key c))
    (fun a b => collation.total (key a) (key b)) items

theorem Collation.sortBy_idempotent (key : α → String) (items : List α) :
    collation.sortBy key (collation.sortBy key items) = collation.sortBy key items :=
  List.mergeSort_of_pairwise (collation.pairwise_sortBy key items)

theorem Collation.sortEntries_perm (entries : List (String × α)) : (collation.sortEntries entries).Perm entries :=
  List.mergeSort_perm _ _

theorem Collation.sorted_sortEntries (entries : List (String × α)) :
    collation.Sorted (keys (collation.sortEntries entries)) := by
  rw [Collation.Sorted, keys, List.pairwise_map]
  exact collation.pairwise_sortBy Prod.fst entries

theorem Collation.sortEntries_eq_self {entries : List (String × α)} (h : collation.Sorted (keys entries)) :
    collation.sortEntries entries = entries := by
  rw [Collation.Sorted, keys, List.pairwise_map] at h
  exact List.mergeSort_of_pairwise h

theorem Collation.sorted_fromEntries {entries : List (String × α)} (h : collation.Sorted (keys entries)) :
    collation.Sorted (keys (fromEntries entries)) := h.sublist (keys_fromEntries_sublist entries)

theorem sortNames_perm (names : List String) : (sortNames names).Perm names := List.mergeSort_perm _ _

theorem sortNames_idempotent (names : List String) : sortNames (sortNames names) = sortNames names :=
  List.mergeSort_of_pairwise (List.pairwise_mergeSort Json.keyLe_trans Json.keyLe_total names)

theorem nodup_of_keys {entries : List (String × α)} (h : (keys entries).Nodup) : entries.Nodup := h.of_map

theorem mem_iff_of_lookup {entries others : List (String × α)} (hEntries : (keys entries).Nodup)
    (hOthers : (keys others).Nodup) (h : ∀ name, entries.lookup name = others.lookup name) (entry : String × α) :
    entry ∈ entries ↔ entry ∈ others := by
  obtain ⟨name, value⟩ := entry
  constructor
  · intro hMem
    exact mem_of_lookup ((h name).symm.trans (lookup_of_mem hEntries hMem))
  · intro hMem
    exact mem_of_lookup ((h name).trans (lookup_of_mem hOthers hMem))

theorem perm_of_lookup {entries others : List (String × α)} (hEntries : (keys entries).Nodup)
    (hOthers : (keys others).Nodup) (h : ∀ name, entries.lookup name = others.lookup name) : entries.Perm others := by
  rw [List.perm_ext_iff_of_nodup (nodup_of_keys hEntries) (nodup_of_keys hOthers)]
  exact mem_iff_of_lookup hEntries hOthers h

theorem sortByName_perm (entries : List (String × α)) : (sortByName entries).Perm entries := List.mergeSort_perm _ _

theorem keys_sortByName_nodup {entries : List (String × α)} (h : (keys entries).Nodup) :
    (keys (sortByName entries)).Nodup := ((sortByName_perm entries).map Prod.fst).nodup_iff.mpr h

theorem pairwise_sortByName (entries : List (String × α)) :
    (sortByName entries).Pairwise fun a b => Json.keyLe a.1 b.1 = true := by
  apply List.pairwise_mergeSort
  · exact fun a b c => Json.keyLe_trans a.1 b.1 c.1
  · exact fun a b => Json.keyLe_total a.1 b.1

theorem eq_of_pairwise_keyLe {entries others : List (String × α)} (hNodup : (keys entries).Nodup)
    (hEntries : entries.Pairwise fun a b => Json.keyLe a.1 b.1 = true)
    (hOthers : others.Pairwise fun a b => Json.keyLe a.1 b.1 = true) (h : entries.Perm others) :
    entries = others := by
  have hAntisymm : ∀ a b, a ∈ entries → b ∈ others → Json.keyLe a.1 b.1 = true → Json.keyLe b.1 a.1 = true → a = b := by
    intro a b hLeft hRight hLe hGe
    have hName : a.1 = b.1 := Json.keyLe_antisymm hLe hGe
    have hFirst := lookup_of_mem hNodup (show (a.1, a.2) ∈ entries from hLeft)
    have hSecond := lookup_of_mem hNodup (show (b.1, b.2) ∈ entries from h.mem_iff.mpr hRight)
    rw [← hName, hFirst] at hSecond
    exact Prod.ext hName (Option.some.inj hSecond)
  exact List.Perm.eq_of_pairwise hAntisymm hEntries hOthers h

theorem sortByName_congr {entries others : List (String × α)} (hEntries : (keys entries).Nodup)
    (hOthers : (keys others).Nodup) (h : ∀ name, entries.lookup name = others.lookup name) :
    sortByName entries = sortByName others := by
  have hPerm := perm_of_lookup hEntries hOthers h
  apply eq_of_pairwise_keyLe (keys_sortByName_nodup hEntries) (pairwise_sortByName entries) (pairwise_sortByName others)
  exact (sortByName_perm entries).trans (hPerm.trans (sortByName_perm others).symm)

theorem sortNames_congr {names others : List String} (h : names.Perm others) : sortNames names = sortNames others := by
  have hAntisymm : ∀ a b, a ∈ sortNames names → b ∈ sortNames others → Json.keyLe a b = true →
      Json.keyLe b a = true → a = b := fun a b _ _ hLe hGe => Json.keyLe_antisymm hLe hGe
  apply List.Perm.eq_of_pairwise hAntisymm
  · exact List.pairwise_mergeSort Json.keyLe_trans Json.keyLe_total names
  · exact List.pairwise_mergeSort Json.keyLe_trans Json.keyLe_total others
  · exact (sortNames_perm names).trans (h.trans (sortNames_perm others).symm)

end Sorted

end Js
