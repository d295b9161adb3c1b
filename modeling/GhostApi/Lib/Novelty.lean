import Mathlib.Data.List.Flatten
import Mathlib.Data.List.Perm.Basic
import Mathlib.Tactic.Common

/-!
# What a growing set notices

Sets of labels are added to what has been seen, one after the other. A set with
a label that was not seen is new; a set that is not empty and not new repeats
what was seen before. Nothing is repeated in any order exactly when every set
has a label of its own.
-/

namespace Novelty

variable {α : Type*}

def labelled : List (List α) → Nat
  | [] => 0
  | labels :: rest => (if labels ≠ [] then 1 else 0) + labelled rest

theorem labelled_perm {sets others : List (List α)} (h : sets.Perm others) : labelled sets = labelled others := by
  induction h with
  | nil => rfl
  | cons labels _ ih => rw [labelled, labelled, ih]
  | swap labels labels' rest =>
    rw [labelled, labelled, labelled, labelled]
    omega
  | trans _ _ ih ih' => exact ih.trans ih'

/-- Every set that is not empty has a label that no other set has. -/
def Own (sets : List (List α)) : Prop :=
  ∀ before labels after, sets = before ++ labels :: after → labels ≠ [] → ∃ label ∈ labels, label ∉ (before ++ after).flatten

theorem Own.perm {sets others : List (List α)} (h : Own sets) (hPerm : sets.Perm others) : Own others := by
  intro before labels after hSplit hNe
  subst hSplit
  obtain ⟨first, last, rfl⟩ := List.append_of_mem (hPerm.mem_iff.mpr (List.mem_append_right before List.mem_cons_self))
  obtain ⟨label, hLabel, hOwn⟩ := h first labels last rfl hNe
  refine ⟨label, hLabel, fun hOther => hOwn ?_⟩
  have hRest : (first ++ last).Perm (before ++ after) :=
    (List.perm_middle.symm.trans (hPerm.trans List.perm_middle)).cons_inv
  obtain ⟨set, hSet, hMem⟩ := List.mem_flatten.mp hOther
  exact List.mem_flatten.mpr ⟨set, hRest.mem_iff.mpr hSet, hMem⟩

variable [DecidableEq α]

def news (seen : List α) : List (List α) → Nat
  | [] => 0
  | labels :: rest => (if labels ⊆ seen then 0 else 1) + news (seen ++ labels) rest

def repeats (seen : List α) : List (List α) → Nat
  | [] => 0
  | labels :: rest => (if labels ≠ [] ∧ labels ⊆ seen then 1 else 0) + repeats (seen ++ labels) rest

theorem news_add_repeats (seen : List α) (sets : List (List α)) : news seen sets + repeats seen sets = labelled sets := by
  induction sets generalizing seen with
  | nil => rfl
  | cons labels rest ih =>
    have hRest := ih (seen ++ labels)
    have hHead : (if labels ⊆ seen then 0 else 1) + (if labels ≠ [] ∧ labels ⊆ seen then 1 else 0) =
        if labels ≠ [] then 1 else 0 := by
      by_cases hEmpty : labels = []
      · simp [hEmpty]
      · by_cases hSeen : labels ⊆ seen
        · simp [hEmpty, hSeen]
        · simp [hEmpty, hSeen]
    rw [news, repeats, labelled, ← hHead, ← hRest]
    omega

theorem news_congr {seen others : List α} {sets : List (List α)}
    (h : ∀ label ∈ sets.flatten, label ∈ seen ↔ label ∈ others) : news seen sets = news others sets := by
  induction sets generalizing seen others with
  | nil => rfl
  | cons labels rest ih =>
    rw [List.flatten_cons] at h
    have hSubset : labels ⊆ seen ↔ labels ⊆ others :=
      forall₂_congr fun label hLabel => h label (List.mem_append_left _ hLabel)
    have hRest : news (seen ++ labels) rest = news (others ++ labels) rest := by
      refine ih fun label hLabel => ?_
      rw [List.mem_append, List.mem_append, h label (List.mem_append_right _ hLabel)]
    rw [news, news, hRest]
    simp only [hSubset]

theorem news_append (seen : List α) (sets others : List (List α)) :
    news seen (sets ++ others) = news seen sets + news (seen ++ sets.flatten) others := by
  induction sets generalizing seen with
  | nil => rw [List.nil_append, news, List.flatten_nil, List.append_nil, Nat.zero_add]
  | cons labels rest ih =>
    rw [List.cons_append, news, news, ih, List.flatten_cons, List.append_assoc]
    omega

theorem repeats_eq_zero {before sets : List (List α)} (h : Own (before ++ sets)) : repeats before.flatten sets = 0 := by
  induction sets generalizing before with
  | nil => rfl
  | cons labels rest ih =>
    have hNext : Own ((before ++ [labels]) ++ rest) := by
      rwa [List.append_assoc]
    have hRest := ih hNext
    rw [List.flatten_append, List.flatten_singleton] at hRest
    have hNew : ¬(labels ≠ [] ∧ labels ⊆ before.flatten) := by
      rintro ⟨hNe, hSubset⟩
      obtain ⟨label, hLabel, hOwn⟩ := h before labels rest rfl hNe
      rw [List.flatten_append, List.mem_append] at hOwn
      exact hOwn (.inl (hSubset hLabel))
    rw [repeats, if_neg hNew, hRest]

theorem repeats_last (seen : List α) (before : List (List α)) {labels : List α} (hNe : labels ≠ [])
    (h : labels ⊆ seen ++ before.flatten) : 0 < repeats seen (before ++ [labels]) := by
  induction before generalizing seen with
  | nil =>
    rw [List.flatten_nil, List.append_nil] at h
    rw [List.nil_append, repeats, if_pos ⟨hNe, h⟩]
    omega
  | cons first rest ih =>
    have hRest := ih (seen ++ first) (by rwa [List.append_assoc, ← List.flatten_cons])
    rw [List.cons_append, repeats]
    omega

end Novelty
