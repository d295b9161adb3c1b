import Mathlib.Data.List.Nodup
import Mathlib.Data.List.Perm.Subperm
import Mathlib.Logic.Function.Basic
import Mathlib.Tactic.TypeStar

/-!
# Rows of a database

A database is a finite map from row keys to rows; the key says which table a
row belongs to and so which columns it has. A unique index is a table of its
own whose keys are the indexed values. A transaction is a list of new
versions of rows.
-/

namespace Sql

variable {κ : Type} {V : κ → Type}

/-- The committed rows, with the keys in the order of their first insertion. -/
structure Rows (V : κ → Type) where
  row : (k : κ) → Option (V k)
  keys : List κ
  nodup : keys.Nodup
  listed : ∀ k, row k ≠ none → k ∈ keys

structure Change (V : κ → Type) where
  key : κ
  version : Option (V key)

namespace Rows

def empty : Rows V where
  row _ := none
  keys := []
  nodup := List.nodup_nil
  listed _ h := absurd rfl h

@[simp] theorem row_empty (k : κ) : (empty : Rows V).row k = none := rfl

section Views

variable [DecidableEq κ]

theorem nodup_insertLast {k : κ} {keys : List κ} (h : keys.Nodup) :
    (if k ∈ keys then keys else keys ++ [k]).Nodup := by
  split
  · exact h
  · rename_i hNew
    exact List.nodup_append.mpr ⟨h, List.nodup_singleton k, fun x hx y hy hSame =>
      hNew (List.mem_singleton.mp hy ▸ hSame ▸ hx)⟩

theorem mem_insertLast {k k' : κ} {keys : List κ} (h : k' = k ∨ k' ∈ keys) :
    k' ∈ if k ∈ keys then keys else keys ++ [k] := by
  split
  · rcases h with rfl | h
    · assumption
    · exact h
  · rcases h with rfl | h
    · exact List.mem_append_right _ (List.mem_singleton_self _)
    · exact List.mem_append_left _ h

def put (rows : Rows V) (change : Change V) : Rows V where
  row := Function.update rows.row change.key change.version
  keys := if change.key ∈ rows.keys then rows.keys else rows.keys ++ [change.key]
  nodup := nodup_insertLast rows.nodup
  listed k h := by
    refine mem_insertLast ?_
    by_cases hKey : k = change.key
    · exact .inl hKey
    · rw [Function.update_of_ne hKey] at h
      exact .inr (rows.listed k h)

/-- The rows as a transaction with these writes sees them. -/
def apply (rows : Rows V) (changes : List (Change V)) : Rows V := changes.foldl put rows

variable {rows rows' : Rows V} {changes : List (Change V)} {change : Change V} {k : κ}

theorem put_of_ne (h : k ≠ change.key) : (rows.put change).row k = rows.row k := Function.update_of_ne h _ _

theorem put_self (rows : Rows V) (change : Change V) : (rows.put change).row change.key = change.version :=
  Function.update_self _ _ _

@[simp] theorem apply_nil (rows : Rows V) : rows.apply [] = rows := rfl

@[simp] theorem apply_cons (rows : Rows V) (change : Change V) (changes : List (Change V)) :
    rows.apply (change :: changes) = (rows.put change).apply changes := rfl

theorem apply_append (rows : Rows V) (changes later : List (Change V)) :
    rows.apply (changes ++ later) = (rows.apply changes).apply later := List.foldl_append

theorem apply_concat (rows : Rows V) (changes : List (Change V)) (change : Change V) :
    rows.apply (changes ++ [change]) = (rows.apply changes).put change := apply_append rows changes [change]

theorem apply_of_unwritten (h : ∀ change ∈ changes, change.key ≠ k) : (rows.apply changes).row k = rows.row k := by
  induction changes generalizing rows with
  | nil => rfl
  | cons change changes ih =>
    rw [apply_cons, ih fun c hc => h c (List.mem_cons_of_mem change hc)]
    exact put_of_ne (h change List.mem_cons_self).symm

theorem apply_congr (h : rows.row k = rows'.row k) : (rows.apply changes).row k = (rows'.apply changes).row k := by
  induction changes generalizing rows rows' with
  | nil => exact h
  | cons change changes ih =>
    refine ih ?_
    by_cases hKey : k = change.key
    · subst hKey
      rw [put_self, put_self]
    · rw [put_of_ne hKey, put_of_ne hKey, h]

theorem apply_of_written (h : ∃ change ∈ changes, change.key = k) :
    (rows.apply changes).row k = (rows'.apply changes).row k := by
  induction changes generalizing rows rows' with
  | nil =>
    obtain ⟨_, hMem, _⟩ := h
    cases hMem
  | cons change changes ih =>
    by_cases hKey : k = change.key
    · subst hKey
      rw [apply_cons, apply_cons]
      exact apply_congr (by rw [put_self, put_self])
    · refine ih ?_
      obtain ⟨c, hMem, rfl⟩ := h
      rcases List.mem_cons.mp hMem with rfl | hMem
      · exact absurd rfl hKey
      · exact ⟨c, hMem, rfl⟩

theorem apply_mem_of_written (rows : Rows V) (h : ∃ change ∈ changes, change.key = k) :
    ∃ v, ⟨k, v⟩ ∈ changes ∧ (rows.apply changes).row k = v := by
  induction changes generalizing rows with
  | nil =>
    obtain ⟨_, hMem, _⟩ := h
    cases hMem
  | cons change changes ih =>
    by_cases hLater : ∃ c ∈ changes, c.key = k
    · obtain ⟨v, hMem, hRow⟩ := ih (rows.put change) hLater
      exact ⟨v, List.mem_cons_of_mem change hMem, hRow⟩
    · obtain ⟨c, hMem, rfl⟩ := h
      rcases List.mem_cons.mp hMem with rfl | hMem
      · refine ⟨c.version, List.mem_cons_self, ?_⟩
        rw [apply_cons, apply_of_unwritten fun c' hMem hKey => hLater ⟨c', hMem, hKey⟩, put_self]
      · exact absurd ⟨c, hMem, rfl⟩ hLater

theorem apply_cases (rows : Rows V) (changes : List (Change V)) (k : κ) :
    (rows.apply changes).row k = rows.row k ∨ ∃ v, ⟨k, v⟩ ∈ changes ∧ (rows.apply changes).row k = v := by
  by_cases h : ∃ change ∈ changes, change.key = k
  · exact .inr (apply_mem_of_written rows h)
  · exact .inl (apply_of_unwritten fun change hMem hKey => h ⟨change, hMem, hKey⟩)

end Views

/-! ## Queries over all rows -/

def count (rows : Rows V) (test : (k : κ) → V k → Bool) : Nat :=
  rows.keys.countP fun k => (rows.row k).any (test k)

/-- The answer of a query over all rows, in the order of insertion. -/
def select {β : Type} (rows : Rows V) (found : (k : κ) → V k → Option β) : List β :=
  rows.keys.filterMap fun k => (rows.row k).bind (found k)

variable {rows rows' : Rows V} {k : κ} {test test' : (k : κ) → V k → Bool}

def Passes (rows : Rows V) (test : (k : κ) → V k → Bool) (k : κ) : Prop := ∃ v, rows.row k = some v ∧ test k v = true

theorem passes_iff : (rows.row k).any (test k) = true ↔ rows.Passes test k := by
  cases hRow : rows.row k with
  | none => simp [Passes, hRow]
  | some v => simp [Passes, hRow]

theorem count_eq_length (rows : Rows V) (test : (k : κ) → V k → Bool) :
    rows.count test = (rows.keys.filter fun k => (rows.row k).any (test k)).length := List.countP_eq_length_filter

theorem mem_counted : k ∈ rows.keys.filter (fun k => (rows.row k).any (test k)) ↔ rows.Passes test k := by
  rw [List.mem_filter, passes_iff]
  refine and_iff_right_of_imp fun h => rows.listed k ?_
  obtain ⟨v, hRow, _⟩ := h
  simp [hRow]

theorem count_le_length {keys : List κ} (h : ∀ k, rows.Passes test k → k ∈ keys) : rows.count test ≤ keys.length := by
  rw [count_eq_length]
  exact (List.subperm_of_subset (rows.nodup.filter _) fun k hk => h k (mem_counted.mp hk)).length_le

theorem count_mono (h : ∀ k, rows.Passes test k → rows'.Passes test' k) : rows.count test ≤ rows'.count test' := by
  rw [rows'.count_eq_length]
  exact count_le_length fun k hk => mem_counted.mpr (h k hk)

theorem not_passes_of_count (h : rows.count test = 0) (k : κ) : ¬rows.Passes test k := by
  intro hk
  have hNil := List.length_eq_zero_iff.mp ((rows.count_eq_length test).symm.trans h)
  have hMem := mem_counted.mpr hk
  rw [hNil] at hMem
  cases hMem

theorem count_le_succ (added : κ) (h : ∀ k, rows.Passes test k → k = added ∨ rows'.Passes test' k) :
    rows.count test ≤ rows'.count test' + 1 := by
  rw [rows'.count_eq_length]
  have hMem : ∀ k, rows.Passes test k → k ∈ added :: rows'.keys.filter fun k => (rows'.row k).any (test' k) :=
    fun k hk => List.mem_cons.mpr ((h k hk).imp_right mem_counted.mpr)
  exact count_le_length hMem

theorem mem_select {β : Type} {found : (k : κ) → V k → Option β} {b : β} :
    b ∈ rows.select found ↔ ∃ k v, rows.row k = some v ∧ found k v = some b := by
  rw [select, List.mem_filterMap]
  constructor
  · rintro ⟨k, _, h⟩
    obtain ⟨v, hRow, hFound⟩ := Option.bind_eq_some_iff.mp h
    exact ⟨k, v, hRow, hFound⟩
  · rintro ⟨k, v, hRow, hFound⟩
    exact ⟨k, rows.listed k (by simp [hRow]), Option.bind_eq_some_iff.mpr ⟨v, hRow, hFound⟩⟩

theorem nodup_select {β : Type} {found : (k : κ) → V k → Option β} {rowOf : β → κ}
    (h : ∀ {k v b}, found k v = some b → rowOf b = k) : ((rows.select found).map rowOf).Nodup := by
  have hSublist : ∀ keys : List κ,
      ((keys.filterMap fun k => (rows.row k).bind (found k)).map rowOf).Sublist keys := by
    intro keys
    induction keys with
    | nil => exact .slnil
    | cons k keys ih =>
      rw [List.filterMap_cons]
      split
      · exact ih.cons k
      · rename_i b hFound
        obtain ⟨v, _, hFound⟩ := Option.bind_eq_some_iff.mp hFound
        rw [List.map_cons, h hFound]
        exact ih.cons_cons k
  exact rows.nodup.sublist (hSublist rows.keys)

end Rows

end Sql
