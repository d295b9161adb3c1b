import Mathlib.Data.List.Basic
import Mathlib.Data.List.Nodup

/-!
# Lists of records found by a key

A record is looked up by a test that its key passes. Storing a record puts it
where the test finds one already, or at the end.
-/

namespace Table

variable {α β : Type*} {same : α → Bool} {item x : α} {items : List α}

def upsert (same : α → Bool) (item : α) (items : List α) : List α :=
  if items.any same then items.replaceF fun x => if same x then some item else none else items ++ [item]

theorem any_of_find? (h : items.find? same = some x) : items.any same = true :=
  List.any_eq_true.mpr ⟨x, List.mem_of_find?_eq_some h, List.find?_some h⟩

theorem upsert_nil : upsert same item [] = [item] := rfl

theorem upsert_cons_pos (h : same x = true) : upsert same item (x :: items) = item :: items := by
  simp [upsert, List.replaceF, h]

theorem upsert_cons_neg (h : same x = false) :
    upsert same item (x :: items) = x :: upsert same item items := by
  rw [upsert, upsert, List.any_cons, h, Bool.false_or]
  split
  · simp [List.replaceF, h]
  · rfl

theorem mem_upsert_self (same : α → Bool) (item : α) (items : List α) : item ∈ upsert same item items := by
  induction items with
  | nil => simp [upsert_nil]
  | cons x items ih =>
    cases hSame : same x with
    | true => simp [upsert_cons_pos hSame]
    | false => simp [upsert_cons_neg hSame, ih]

theorem mem_upsert_of_mem (item : α) (hMem : x ∈ items) (hOther : same x = false) :
    x ∈ upsert same item items := by
  induction items with
  | nil => cases hMem
  | cons y items ih =>
    rcases List.mem_cons.mp hMem with rfl | hMem
    · simp [upsert_cons_neg hOther]
    · cases hSame : same y with
      | true => simp [upsert_cons_pos hSame, hMem]
      | false => simp [upsert_cons_neg hSame, ih hMem]

theorem eq_or_mem_of_mem_upsert (h : x ∈ upsert same item items) : x = item ∨ x ∈ items := by
  induction items with
  | nil => simpa [upsert_nil] using h
  | cons y items ih =>
    cases hSame : same y with
    | true =>
      rw [upsert_cons_pos hSame, List.mem_cons] at h
      exact h.imp_right (List.mem_cons_of_mem y)
    | false =>
      rw [upsert_cons_neg hSame, List.mem_cons] at h
      rcases h with rfl | h
      · exact .inr List.mem_cons_self
      · exact (ih h).imp_right (List.mem_cons_of_mem y)

theorem find?_upsert_self (h : same item = true) : (upsert same item items).find? same = some item := by
  induction items with
  | nil => simp [upsert_nil, h]
  | cons x items ih =>
    cases hSame : same x with
    | true => simp [upsert_cons_pos hSame, h]
    | false => simp [upsert_cons_neg hSame, hSame, ih]

theorem find?_upsert_other {other : α → Bool} (hItem : other item = false)
    (hApart : ∀ x, same x = true → other x = false) : (upsert same item items).find? other = items.find? other := by
  induction items with
  | nil => simp [upsert_nil, hItem]
  | cons x items ih =>
    cases hSame : same x with
    | true => simp [upsert_cons_pos hSame, hItem, hApart x hSame]
    | false => simp [upsert_cons_neg hSame, List.find?_cons, ih]

theorem map_upsert (f : α → β) (hFind : items.find? same = some x) (hf : f item = f x) :
    (upsert same item items).map f = items.map f := by
  induction items with
  | nil => cases hFind
  | cons y items ih =>
    cases hSame : same y with
    | true =>
      rw [List.find?_cons_of_pos hSame] at hFind
      cases hFind
      simp [upsert_cons_pos hSame, hf]
    | false =>
      rw [List.find?_cons_of_neg (by simp [hSame])] at hFind
      simp [upsert_cons_neg hSame, ih hFind]

theorem upsert_eq_map [BEq β] [LawfulBEq β] {key : α → β} {k : β} (hNodup : (items.map key).Nodup)
    (hFind : items.find? (key · == k) = some x) :
    upsert (key · == k) item items = items.map fun y => if key y == k then item else y := by
  induction items with
  | nil => cases hFind
  | cons y items ih =>
    rw [List.map_cons, List.nodup_cons] at hNodup
    rw [List.map_cons]
    by_cases hSame : key y == k
    · have hRest : items.map (fun z => if key z == k then item else z) = items := by
        refine (List.map_congr_left fun z hz => if_neg fun hOther => hNodup.1 ?_).trans (List.map_id items)
        rw [eq_of_beq hSame, ← eq_of_beq hOther]
        exact List.mem_map_of_mem hz
      rw [upsert_cons_pos (by exact hSame), if_pos hSame, hRest]
    · rw [List.find?_cons_of_neg (by exact hSame)] at hFind
      rw [upsert_cons_neg (by simpa using hSame), if_neg hSame, ih hNodup.2 hFind]

theorem getElem?_upsert (item : α) (hFind : items.find? same = some x) {i : Nat} {y : α} (h : items[i]? = some y) :
    (upsert same item items)[i]? = some y ∨ y = x ∧ (upsert same item items)[i]? = some item := by
  induction items generalizing i with
  | nil => cases hFind
  | cons z items ih =>
    cases hSame : same z with
    | true =>
      rw [List.find?_cons_of_pos hSame] at hFind
      cases hFind
      rw [upsert_cons_pos hSame]
      cases i with
      | zero =>
        cases h
        exact .inr ⟨rfl, rfl⟩
      | succ i => exact .inl h
    | false =>
      rw [List.find?_cons_of_neg (by simp [hSame])] at hFind
      rw [upsert_cons_neg hSame]
      cases i with
      | zero => exact .inl h
      | succ i => exact ih hFind h

section Keyed

variable [DecidableEq β] (key : α → β)

theorem mem_upsert_iff (hNodup : (items.map key).Nodup) :
    x ∈ upsert (fun y => decide (key y = key item)) item items ↔ x = item ∨ x ∈ items ∧ key x ≠ key item := by
  induction items with
  | nil => simp [upsert_nil]
  | cons y items ih =>
    rw [List.map_cons, List.nodup_cons] at hNodup
    by_cases hSame : key y = key item
    · have hRest : ∀ z ∈ items, key z ≠ key item := fun z hz hKey =>
        hNodup.1 (List.mem_map.mpr ⟨z, hz, hKey.trans hSame.symm⟩)
      rw [upsert_cons_pos (by simpa using hSame), List.mem_cons, List.mem_cons]
      constructor
      · rintro (hItem | hMem)
        · exact .inl hItem
        · exact .inr ⟨.inr hMem, hRest x hMem⟩
      · rintro (hItem | ⟨rfl | hMem, hKey⟩)
        · exact .inl hItem
        · exact absurd hSame hKey
        · exact .inr hMem
    · rw [upsert_cons_neg (by simpa using hSame), List.mem_cons, List.mem_cons, ih hNodup.2]
      constructor
      · rintro (rfl | hItem | ⟨hMem, hKey⟩)
        · exact .inr ⟨.inl rfl, hSame⟩
        · exact .inl hItem
        · exact .inr ⟨.inr hMem, hKey⟩
      · rintro (hItem | ⟨rfl | hMem, hKey⟩)
        · exact .inr (.inl hItem)
        · exact .inl rfl
        · exact .inr (.inr ⟨hMem, hKey⟩)

theorem nodup_upsert (hNodup : (items.map key).Nodup) (item : α) :
    ((upsert (fun y => decide (key y = key item)) item items).map key).Nodup := by
  induction items with
  | nil => simp [upsert_nil]
  | cons y items ih =>
    have hTail := hNodup
    rw [List.map_cons, List.nodup_cons] at hTail
    by_cases hSame : key y = key item
    · rw [upsert_cons_pos (by simpa using hSame), List.map_cons, ← hSame]
      exact hNodup
    · rw [upsert_cons_neg (by simpa using hSame), List.map_cons, List.nodup_cons]
      refine ⟨fun hMem => ?_, ih hTail.2⟩
      obtain ⟨z, hz, hKey⟩ := List.mem_map.mp hMem
      rcases (mem_upsert_iff key hTail.2).mp hz with rfl | ⟨hz, _⟩
      · exact hSame hKey.symm
      · exact hTail.1 (List.mem_map.mpr ⟨z, hz, hKey⟩)

end Keyed

theorem count_flatMap_of_key {α β : Type} [BEq α] [LawfulBEq α] [BEq β] [LawfulBEq β] {f : α → List β} (key : β → α)
    (h : ∀ x, ∀ y ∈ f x, key y = x) (items : List α) (y : β) :
    (items.flatMap f).count y = items.count (key y) * (f (key y)).count y := by
  induction items with
  | nil => simp
  | cons x items ih =>
    rw [List.flatMap_cons, List.count_append, ih, List.count_cons]
    by_cases hKey : x = key y
    · rw [← hKey, if_pos (beq_self_eq_true x), Nat.add_mul, Nat.one_mul, Nat.add_comm]
    · have hNone : (f x).count y = 0 := List.count_eq_zero.mpr fun hMem => hKey (h x y hMem).symm
      rw [hNone, if_neg (by simpa using hKey)]
      simp

end Table
