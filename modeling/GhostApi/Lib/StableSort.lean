import Mathlib.Data.List.Nodup
import Mathlib.Data.List.Perm.Basic

/-!
# Stable sorting by a comparison that may tie

Elements that the comparison does not separate keep their order. Two lists are
therefore sorted to the same list exactly when every class of tied elements
comes in the same order in both.
-/

namespace StableSort

variable {α β : Type*} {le : α → α → Bool}

structure Compares (le : α → α → Bool) : Prop where
  trans : ∀ a b c, le a b = true → le b c = true → le a c = true
  total : ∀ a b, (le a b || le b a) = true

def tied (le : α → α → Bool) (a b : α) : Bool := le a b && le b a

namespace Compares

theorem refl (h : Compares le) (a : α) : le a a = true := by
  simpa using h.total a a

theorem tied_refl (h : Compares le) (a : α) : tied le a a = true := by
  simp [tied, h.refl a]

theorem map (h : Compares le) (f : β → α) : Compares fun a b => le (f a) (f b) where
  trans a b c := h.trans (f a) (f b) (f c)
  total a b := h.total (f a) (f b)

theorem filter_mergeSort (h : Compares le) (x : α) (items : List α) :
    (items.mergeSort le).filter (tied le x) = items.filter (tied le x) := by
  have hTies : (items.filter (tied le x)).Pairwise fun a b => le a b = true := by
    refine List.pairwise_of_forall_mem_list fun a ha b hb => ?_
    have hLeft := (List.mem_filter.mp ha).2
    have hRight := (List.mem_filter.mp hb).2
    rw [tied, Bool.and_eq_true] at hLeft hRight
    exact h.trans a x b hLeft.2 hRight.1
  have hSub : List.Sublist (items.filter (tied le x)) (items.mergeSort le) :=
    List.sublist_mergeSort h.trans h.total hTies List.filter_sublist
  have hKept := hSub.filter (tied le x)
  rw [List.filter_filter] at hKept
  simp only [Bool.and_self] at hKept
  have hLength := ((List.mergeSort_perm items le).filter (tied le x)).length_eq
  exact (hKept.eq_of_length hLength.symm).symm

/-- Sorted lists with the same classes of tied elements are the same; by induction on the first. -/
theorem eq_of_sorted (h : Compares le) {items others : List α} (hItems : items.Pairwise fun a b => le a b = true)
    (hOthers : others.Pairwise fun a b => le a b = true)
    (hTies : ∀ x, items.filter (tied le x) = others.filter (tied le x)) : items = others := by
  have hMem : ∀ {xs ys : List α}, (∀ x, xs.filter (tied le x) = ys.filter (tied le x)) → ∀ a ∈ xs, a ∈ ys := by
    intro xs ys hSame a ha
    have hFilter : a ∈ xs.filter (tied le a) := List.mem_filter.mpr ⟨ha, h.tied_refl a⟩
    rw [hSame a] at hFilter
    exact (List.mem_filter.mp hFilter).1
  induction items generalizing others with
  | nil =>
    cases others with
    | nil => rfl
    | cons b others => cases hMem (fun x => (hTies x).symm) b List.mem_cons_self
  | cons a items ih =>
    cases others with
    | nil => cases hMem hTies a List.mem_cons_self
    | cons b others =>
      rw [List.pairwise_cons] at hItems hOthers
      have hLeft : le a b = true := by
        cases List.mem_cons.mp (hMem (fun x => (hTies x).symm) b List.mem_cons_self) with
        | inl hSame => exact hSame ▸ h.refl b
        | inr hLater => exact hItems.1 b hLater
      have hRight : le b a = true := by
        cases List.mem_cons.mp (hMem hTies a List.mem_cons_self) with
        | inl hSame => exact hSame ▸ h.refl a
        | inr hLater => exact hOthers.1 a hLater
      have hTied : tied le a b = true := by
        rw [tied, hLeft, hRight, Bool.and_self]
      have hHeads := hTies a
      rw [List.filter_cons_of_pos (h.tied_refl a), List.filter_cons_of_pos hTied] at hHeads
      obtain ⟨rfl, _⟩ := List.cons.inj hHeads
      congr 1
      refine ih hItems.2 hOthers.2 fun x => ?_
      have hClass := hTies x
      rw [List.filter_cons, List.filter_cons] at hClass
      split at hClass
      · exact (List.cons.inj hClass).2
      · exact hClass

theorem mergeSort_eq_iff (h : Compares le) (items others : List α) :
    items.mergeSort le = others.mergeSort le ↔ ∀ x, items.filter (tied le x) = others.filter (tied le x) := by
  constructor
  · intro hSorted x
    rw [← h.filter_mergeSort x items, hSorted, h.filter_mergeSort]
  · intro hTies
    refine h.eq_of_sorted (List.pairwise_mergeSort h.trans h.total items) (List.pairwise_mergeSort h.trans h.total others)
      fun x => ?_
    rw [h.filter_mergeSort, h.filter_mergeSort, hTies x]

end Compares

theorem eq_of_map_fst_eq {members others : List (α × β)} (hPerm : members.Perm others) (distinct : (members.map Prod.fst).Nodup)
    (hKeys : members.map Prod.fst = others.map Prod.fst) : members = others := by
  have hLength : members.length = others.length := hPerm.length_eq
  refine List.ext_getElem hLength fun i hi hi' => ?_
  have hKey := List.getElem_of_eq hKeys (by rwa [List.length_map])
  rw [List.getElem_map, List.getElem_map] at hKey
  exact List.inj_on_of_nodup_map distinct (List.getElem_mem hi) (hPerm.mem_iff.mpr (List.getElem_mem hi')) hKey

end StableSort
