import Mathlib.Data.Finset.Card
import Mathlib.Data.List.Nodup
import Mathlib.Order.Basic

/-!
# The greatest items of a growing set

A list keeps the n greatest items of a set in increasing order. A new item is
merged in and the list cut back to its last n items; what was dropped before
is never missed.
-/

namespace Recent

variable {α : Type*} [LinearOrder α]

structure Newest (n : Nat) (all : Finset α) (kept : List α) : Prop where
  increasing : kept.Pairwise (· < ·)
  mem : ∀ a ∈ kept, a ∈ all
  length : kept.length = min n all.card
  later : ∀ a ∈ all, a ∉ kept → ∀ b ∈ kept, a < b

def lastOf {β : Type*} (n : Nat) (items : List β) : List β := items.drop (items.length - n)

theorem lastOf_map {β γ : Type*} (f : β → γ) (n : Nat) (items : List β) : lastOf n (items.map f) = (lastOf n items).map f := by
  rw [lastOf, lastOf, List.length_map, List.map_drop]

variable {n : Nat} {all : Finset α} {kept merged : List α} {a : α}

theorem newest_empty : Newest n (∅ : Finset α) [] where
  increasing := .nil
  mem _ h := absurd h List.not_mem_nil
  length := by simp
  later _ h := absurd h (Finset.notMem_empty _)

omit [LinearOrder α] in
theorem length_lastOf (n : Nat) (items : List α) : (lastOf n items).length = min n items.length := by
  rw [lastOf, List.length_drop]
  omega

theorem nodup_of_increasing (h : merged.Pairwise (· < ·)) : merged.Nodup := h.imp fun hLess => hLess.ne

theorem lt_of_cut {b : α} (h : merged.Pairwise (· < ·)) (hMem : a ∈ merged) (hCut : a ∉ lastOf n merged)
    (hKept : b ∈ lastOf n merged) : a < b := by
  have hSplit := List.take_append_drop (merged.length - n) merged
  rw [← hSplit] at h hMem
  have hFront : a ∈ merged.take (merged.length - n) := (List.mem_append.mp hMem).resolve_right hCut
  exact (List.pairwise_append.mp h).2.2 a hFront b hKept

theorem length_merged (hIncreasing : merged.Pairwise (· < ·)) (hMerged : ∀ b, b ∈ merged ↔ b = a ∨ b ∈ kept) :
    merged.length = (insert a kept.toFinset).card := by
  have hSame : merged.toFinset = insert a kept.toFinset := by
    ext b
    rw [List.mem_toFinset, hMerged, Finset.mem_insert, List.mem_toFinset]
  rw [← hSame, List.toFinset_card_of_nodup (nodup_of_increasing hIncreasing)]

namespace Newest

variable (h : Newest n all kept)

include h

theorem toFinset_subset : kept.toFinset ⊆ all := fun a hMem => h.mem a (List.mem_toFinset.mp hMem)

theorem card_kept : kept.toFinset.card = kept.length := List.toFinset_card_of_nodup (nodup_of_increasing h.increasing)

theorem length_of_missing (hMem : a ∈ all) (hMissing : a ∉ kept) : kept.length = n ∧ n < all.card := by
  have hFewer : kept.toFinset.card < all.card :=
    Finset.card_lt_card ⟨h.toFinset_subset, fun hAll => hMissing (List.mem_toFinset.mp (hAll hMem))⟩
  have hLength := h.length
  rw [h.card_kept] at hFewer
  omega

variable (hIncreasing : merged.Pairwise (· < ·)) (hMerged : ∀ b, b ∈ merged ↔ b = a ∨ b ∈ kept)

include hIncreasing hMerged

theorem length_insert : (lastOf n merged).length = min n (insert a all).card := by
  have hLength := h.length
  have hCount := length_merged hIncreasing hMerged
  rw [length_lastOf]
  by_cases hKept : a ∈ kept
  · rw [Finset.insert_eq_of_mem (List.mem_toFinset.mpr hKept), h.card_kept] at hCount
    rw [Finset.insert_eq_of_mem (h.mem a hKept)]
    omega
  · rw [Finset.card_insert_of_notMem (fun hMem => hKept (List.mem_toFinset.mp hMem)), h.card_kept] at hCount
    by_cases hMem : a ∈ all
    · obtain ⟨hFull, hMore⟩ := h.length_of_missing hMem hKept
      rw [Finset.insert_eq_of_mem hMem]
      omega
    · rw [Finset.card_insert_of_notMem hMem]
      omega

theorem lt_of_dropped {b c : α} (hAll : b ∈ all) (hDropped : b ∉ kept) (hLeft : c ∈ lastOf n merged) : b < c := by
  have hMem : c ∈ merged := List.mem_of_mem_drop hLeft
  by_cases hOld : c ∈ kept
  · exact h.later b hAll hDropped c hOld
  · have hNew : c = a := ((hMerged c).mp hMem).resolve_right hOld
    subst hNew
    obtain ⟨hFull, _⟩ := h.length_of_missing hAll hDropped
    have hCount := length_merged hIncreasing hMerged
    rw [Finset.card_insert_of_notMem (fun hMem => hOld (List.mem_toFinset.mp hMem)), h.card_kept] at hCount
    -- The list was full, so its smallest item was cut off; it is no new one.
    obtain ⟨least, rest, rfl⟩ : ∃ least rest, merged = least :: rest :=
      List.exists_cons_of_length_eq_add_one hCount
    have hRest : lastOf n (least :: rest) = rest := by
      rw [lastOf, hCount, hFull, Nat.add_sub_cancel_left, List.drop_one, List.tail_cons]
    rw [hRest] at hLeft
    have hLess : least < c := (List.pairwise_cons.mp hIncreasing).1 c hLeft
    have hKept : least ∈ kept := ((hMerged least).mp List.mem_cons_self).resolve_left hLess.ne
    exact (h.later b hAll hDropped least hKept).trans hLess

theorem inserted : Newest n (insert a all) (lastOf n merged) where
  increasing := hIncreasing.sublist (List.drop_sublist _ _)
  mem b hMem := by
    have hCases := (hMerged b).mp (List.mem_of_mem_drop hMem)
    exact Finset.mem_insert.mpr (hCases.imp_right (h.mem b))
  length := h.length_insert hIncreasing hMerged
  later b hMem hCut c hLeft := by
    by_cases hSeen : b ∈ merged
    · exact lt_of_cut hIncreasing hSeen hCut hLeft
    · have hOther : ¬(b = a ∨ b ∈ kept) := fun hCases => hSeen ((hMerged b).mpr hCases)
      obtain ⟨hNew, hDropped⟩ := not_or.mp hOther
      have hAll : b ∈ all := (Finset.mem_insert.mp hMem).resolve_left hNew
      exact h.lt_of_dropped hIncreasing hMerged hAll hDropped hLeft

end Newest

end Recent
