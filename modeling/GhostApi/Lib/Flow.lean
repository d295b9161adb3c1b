import Mathlib.Data.List.Perm.Basic

/-!
# What enters and leaves a queue

A log of the items that entered a queue, of those that left it at its front,
given to a caller or buried, and of those buried in all. It is balanced when
every entry has exactly one fate and the front keeps the order of entry.
-/

namespace Flow

variable {α : Type*}

structure Log (α : Type*) where
  created : List α := []
  /-- Left at the front. -/
  shifted : List α := []
  returned : List α := []
  moved : List α := []

inductive Move (α : Type*)
  | rest
  | push (item : α)
  | take (item : α)
  | bury (items : List α)
  | sweep (items : List α)

def Log.add (log : Log α) : Move α → Log α
  | .rest => log
  | .push item => { log with created := log.created ++ [item] }
  | .take item => { log with shifted := log.shifted ++ [item], returned := log.returned ++ [item] }
  | .bury items => { log with shifted := log.shifted ++ items, moved := log.moved ++ items }
  | .sweep items => { log with moved := log.moved ++ items }

structure Log.Balanced (log : Log α) (queue : List α) : Prop where
  accounted : log.created.Perm (queue ++ log.returned ++ log.moved)
  ordered : (log.shifted ++ queue).Sublist log.created
  front : log.returned.Sublist log.shifted

variable {log : Log α} {queue rest : List α} {item : α}

theorem balanced_empty : Log.Balanced ({} : Log α) [] := ⟨.nil, .slnil, .slnil⟩

namespace Log.Balanced

theorem push (h : log.Balanced queue) : (log.add (.push item)).Balanced (queue ++ [item]) where
  accounted := by
    have hEntered : (log.created ++ [item]).Perm (queue ++ log.returned ++ log.moved ++ [item]) :=
      h.accounted.append_right [item]
    refine hEntered.trans ?_
    simp only [List.append_assoc]
    refine List.Perm.append_left queue ?_
    rw [← List.append_assoc]
    exact List.perm_append_comm
  ordered := by
    rw [← List.append_assoc]
    exact h.ordered.append_right [item]
  front := h.front

theorem take (h : log.Balanced (item :: rest)) : (log.add (.take item)).Balanced rest where
  accounted := by
    refine h.accounted.trans ?_
    have hMiddle : (item :: (rest ++ log.returned)).Perm (rest ++ (log.returned ++ [item])) := by
      rw [← List.append_assoc]
      exact (List.perm_append_singleton item _).symm
    exact hMiddle.append_right log.moved
  ordered := by
    have hOrdered := h.ordered
    rwa [List.append_cons] at hOrdered
  front := h.front.append_right [item]

theorem bury (h : log.Balanced (item :: rest)) : (log.add (.bury [item])).Balanced rest where
  accounted := by
    refine h.accounted.trans ?_
    have hLast : (item :: (rest ++ log.returned ++ log.moved)).Perm (rest ++ log.returned ++ log.moved ++ [item]) :=
      (List.perm_append_singleton item _).symm
    rwa [List.append_assoc (rest ++ log.returned)] at hLast
  ordered := by
    have hOrdered := h.ordered
    rwa [List.append_cons] at hOrdered
  front := h.front.trans (List.sublist_append_left _ _)

theorem sweep (h : log.Balanced queue) (p : α → Bool) :
    (log.add (.sweep (queue.filter p))).Balanced (queue.filter fun item => !p item) where
  accounted := by
    refine h.accounted.trans ?_
    have hParts : queue.Perm ((queue.filter fun item => !p item) ++ queue.filter p) :=
      (List.filter_append_perm p queue).symm.trans List.perm_append_comm
    have hOut : (queue.filter p ++ (log.returned ++ log.moved)).Perm
        (log.returned ++ (log.moved ++ queue.filter p)) := by
      rw [← List.append_assoc log.returned]
      exact List.perm_append_comm
    rw [List.append_assoc]
    refine (hParts.append_right _).trans ?_
    simp only [List.append_assoc]
    exact hOut.append_left _
  ordered := (List.filter_sublist.append_left _).trans h.ordered
  front := h.front

end Log.Balanced

structure Log.Extends (log later : Log α) : Prop where
  created : log.created <+: later.created
  returned : log.returned <+: later.returned
  moved : log.moved <+: later.moved

theorem extends_refl (log : Log α) : log.Extends log :=
  ⟨List.prefix_rfl, List.prefix_rfl, List.prefix_rfl⟩

theorem Log.Extends.add {later : Log α} (h : log.Extends later) (move : Move α) : log.Extends (later.add move) where
  created := by
    cases move with
    | push item => exact h.created.trans (List.prefix_append _ _)
    | _ => exact h.created
  returned := by
    cases move with
    | take item => exact h.returned.trans (List.prefix_append _ _)
    | _ => exact h.returned
  moved := by
    cases move with
    | bury items => exact h.moved.trans (List.prefix_append _ _)
    | sweep items => exact h.moved.trans (List.prefix_append _ _)
    | _ => exact h.moved

def Kept (moved kept : List α) : Prop := ∃ evicted, moved = evicted ++ kept

theorem Kept.append {moved kept : List α} (h : Kept moved kept) (items : List α) :
    Kept (moved ++ items) (kept ++ items) := by
  obtain ⟨evicted, rfl⟩ := h
  exact ⟨evicted, List.append_assoc ..⟩

theorem Kept.tail {moved kept : List α} (h : Kept moved kept) : Kept moved kept.tail := by
  obtain ⟨evicted, rfl⟩ := h
  cases kept with
  | nil => exact ⟨evicted, rfl⟩
  | cons first kept => exact ⟨evicted ++ [first], List.append_cons ..⟩

end Flow
