import Mathlib.Data.List.Perm.Basic

/-!
# Lists that agree up to their order

The elements of one list are related to those of the other, in some order.
-/

namespace Reordering

variable {α β γ δ : Type*}

inductive Rearranged (R : α → β → Prop) : List α → List β → Prop
  | nil : Rearranged R [] []
  | cons {x : α} {y : β} {xs rest : List α} {ys : List β} (perm : xs.Perm (x :: rest)) (related : R x y)
      (others : Rearranged R rest ys) : Rearranged R xs (y :: ys)

variable {R S : α → β → Prop} {xs : List α} {ys : List β}

theorem forall₂_mem_left {x : α} (h : List.Forall₂ R xs ys) (hx : x ∈ xs) : ∃ y ∈ ys, R x y := by
  induction h with
  | nil => cases hx
  | cons hRelated _ ih =>
    cases List.mem_cons.mp hx with
    | inl hHead =>
      rw [hHead]
      exact ⟨_, List.mem_cons_self, hRelated⟩
    | inr hTail =>
      obtain ⟨y, hy, hOther⟩ := ih hTail
      exact ⟨y, List.mem_cons_of_mem _ hy, hOther⟩

theorem forall₂_mem_right {y : β} (h : List.Forall₂ R xs ys) (hy : y ∈ ys) : ∃ x ∈ xs, R x y :=
  forall₂_mem_left h.flip hy

theorem forall₂_imp (h : List.Forall₂ R xs ys) (hImp : ∀ x ∈ xs, ∀ y ∈ ys, R x y → S x y) : List.Forall₂ S xs ys := by
  induction h with
  | nil => exact .nil
  | cons hRelated _ ih =>
    refine .cons (hImp _ List.mem_cons_self _ List.mem_cons_self hRelated) (ih fun x hx y hy => ?_)
    exact hImp x (List.mem_cons_of_mem _ hx) y (List.mem_cons_of_mem _ hy)

theorem forall₂_iff_map {f : α → γ} {g : β → γ} : List.Forall₂ (fun x y => f x = g y) xs ys ↔ xs.map f = ys.map g := by
  rw [← List.forall₂_eq_eq_eq, List.forall₂_map_left_iff, List.forall₂_map_right_iff]

theorem rearranged_iff : Rearranged R xs ys ↔ ∃ middle, xs.Perm middle ∧ List.Forall₂ R middle ys := by
  constructor
  · intro h
    induction h with
    | nil => exact ⟨[], .refl _, .nil⟩
    | cons hPerm hRelated _ ih =>
      obtain ⟨middle, hRest, hOthers⟩ := ih
      exact ⟨_, hPerm.trans (hRest.cons _), .cons hRelated hOthers⟩
  · rintro ⟨middle, hPerm, hRelated⟩
    induction hRelated generalizing xs with
    | nil =>
      rw [List.perm_nil.mp hPerm]
      exact .nil
    | cons hHead _ ih => exact .cons hPerm hHead (ih (.refl _))

theorem rearranged_of_map {f : α → γ} {g : β → γ} (h : (xs.map f).Perm (ys.map g)) : Rearranged (fun x y => f x = g y) xs ys := by
  have hLeft : List.Forall₂ (fun x c => f x = c) xs (xs.map f) := List.forall₂_map_right_iff.mpr (List.forall₂_same.mpr fun _ _ => rfl)
  have hComp : Relation.Comp (List.Forall₂ fun x c => f x = c) List.Perm xs (ys.map g) := ⟨_, hLeft, h⟩
  rw [List.forall₂_comp_perm_eq_perm_comp_forall₂] at hComp
  obtain ⟨middle, hPerm, hRelated⟩ := hComp
  exact rearranged_iff.mpr ⟨_, hPerm, List.forall₂_map_right_iff.mp hRelated⟩

namespace Rearranged

theorem imp (h : Rearranged R xs ys) (hImp : ∀ x ∈ xs, ∀ y ∈ ys, R x y → S x y) : Rearranged S xs ys := by
  obtain ⟨middle, hPerm, hRelated⟩ := rearranged_iff.mp h
  exact rearranged_iff.mpr ⟨_, hPerm, forall₂_imp hRelated fun x hx => hImp x (hPerm.mem_iff.mpr hx)⟩

theorem mem_left {x : α} (h : Rearranged R xs ys) (hx : x ∈ xs) : ∃ y ∈ ys, R x y := by
  obtain ⟨middle, hPerm, hRelated⟩ := rearranged_iff.mp h
  exact forall₂_mem_left hRelated (hPerm.mem_iff.mp hx)

theorem mem_right {y : β} (h : Rearranged R xs ys) (hy : y ∈ ys) : ∃ x ∈ xs, R x y := by
  obtain ⟨middle, hPerm, hRelated⟩ := rearranged_iff.mp h
  obtain ⟨x, hx, hOther⟩ := forall₂_mem_right hRelated hy
  exact ⟨x, hPerm.mem_iff.mpr hx, hOther⟩

theorem map {T : γ → δ → Prop} {f : α → γ} {g : β → δ} (h : Rearranged R xs ys) (hMap : ∀ x y, R x y → T (f x) (g y)) :
    Rearranged T (xs.map f) (ys.map g) := by
  obtain ⟨middle, hPerm, hRelated⟩ := rearranged_iff.mp h
  refine rearranged_iff.mpr ⟨_, hPerm.map f, ?_⟩
  rw [List.forall₂_map_left_iff, List.forall₂_map_right_iff]
  exact hRelated.imp fun _ _ => hMap _ _

theorem append_singleton {x : α} {y : β} (h : Rearranged R xs ys) (hLast : R x y) : Rearranged R (xs ++ [x]) (ys ++ [y]) := by
  obtain ⟨middle, hPerm, hRelated⟩ := rearranged_iff.mp h
  exact rearranged_iff.mpr ⟨_, hPerm.append_right _, List.rel_append hRelated (.cons hLast .nil)⟩

end Rearranged

end Reordering
