import GhostApi.Lib.Table
import Mathlib.Data.List.Induction
import Mathlib.Data.List.Sort

/-!
# Latest items

A stable sort by time, and the last item of every key in a list. Sorting
before picking gives the item with the greatest time of its key; of items with
one time the last in the original order.
-/

namespace Latest

variable {α κ : Type}

/-! ## Sorting by time -/

section Sorting

variable (time : α → Int)

def insertByTime (x : α) (xs : List α) : List α := xs.orderedInsert (fun a b => time a ≤ time b) x

def sortByTime (xs : List α) : List α := xs.insertionSort fun a b => time a ≤ time b

/-- No item before has a greater time, and all items after have smaller ones. -/
def IsLatest (xs : List α) (x : α) : Prop :=
  ∃ before after, xs = before ++ x :: after ∧ (∀ y ∈ before, time y ≤ time x) ∧ ∀ y ∈ after, time y < time x

variable {time}

theorem sorted_sortByTime (xs : List α) : (sortByTime time xs).Pairwise fun a b => time a ≤ time b := by
  have hTotal : Std.Total fun a b : α => time a ≤ time b := ⟨fun a b => Int.le_total (time a) (time b)⟩
  have hTrans : IsTrans α fun a b => time a ≤ time b := ⟨fun _ _ _ => Int.le_trans⟩
  exact List.pairwise_insertionSort _ xs

theorem mem_sortByTime {xs : List α} {x : α} : x ∈ sortByTime time xs ↔ x ∈ xs := List.mem_insertionSort _

theorem sortByTime_cons (x : α) (xs : List α) : sortByTime time (x :: xs) = insertByTime time x (sortByTime time xs) := rfl

theorem insertByTime_nil (x : α) : insertByTime time x [] = [x] := rfl

theorem insertByTime_of_le {x y : α} (h : time x ≤ time y) (ys : List α) : insertByTime time x (y :: ys) = x :: y :: ys :=
  List.orderedInsert_cons_of_le (fun a b => time a ≤ time b) ys h

theorem insertByTime_of_not_le {x y : α} (h : ¬time x ≤ time y) (ys : List α) :
    insertByTime time x (y :: ys) = y :: insertByTime time x ys :=
  List.orderedInsert_of_not_le (fun a b => time a ≤ time b) ys h

theorem filter_insertByTime {p : α → Bool} {x : α} {xs : List α} (hSorted : xs.Pairwise fun a b => time a ≤ time b) :
    (insertByTime time x xs).filter p =
      if p x then insertByTime time x (xs.filter p) else xs.filter p := by
  induction xs with
  | nil =>
    rw [insertByTime_nil, List.filter_nil, insertByTime_nil]
    cases hp : p x <;> simp [hp]
  | cons y ys ih =>
    rw [List.pairwise_cons] at hSorted
    by_cases hLe : time x ≤ time y
    · have hAll : ∀ z ∈ (y :: ys).filter p, time x ≤ time z := by
        intro z hz
        rcases List.mem_cons.mp (List.mem_filter.mp hz).1 with rfl | hMem
        · exact hLe
        · exact Int.le_trans hLe (hSorted.1 z hMem)
      rw [insertByTime_of_le hLe, List.filter_cons]
      cases hp : p x with
      | false => simp
      | true =>
        simp only [if_true]
        cases hFilter : (y :: ys).filter p with
        | nil => rfl
        | cons z zs =>
          rw [hFilter] at hAll
          rw [insertByTime_of_le (hAll z List.mem_cons_self)]
    · rw [insertByTime_of_not_le hLe, List.filter_cons, List.filter_cons, ih hSorted.2]
      cases hp : p x <;> cases hq : p y <;> simp [insertByTime_of_not_le hLe]

theorem filter_sortByTime (p : α → Bool) (xs : List α) :
    (sortByTime time xs).filter p = sortByTime time (xs.filter p) := by
  induction xs with
  | nil => rfl
  | cons x xs ih =>
    have hSorted : (sortByTime time xs).Pairwise fun a b => time a ≤ time b := sorted_sortByTime xs
    have hInsert := filter_insertByTime (p := p) (x := x) hSorted
    rw [sortByTime_cons, hInsert, ih, List.filter_cons]
    split <;> rfl

theorem filter_time_sortByTime (xs : List α) (t : Int) :
    (sortByTime time xs).filter (fun x => decide (time x = t)) = xs.filter fun x => decide (time x = t) := by
  rw [filter_sortByTime]
  refine List.Pairwise.insertionSort_eq ?_
  refine List.pairwise_of_forall_mem_list fun a ha b hb => ?_
  have hSame : time a = time b := by
    rw [of_decide_eq_true (List.mem_filter.mp ha).2, of_decide_eq_true (List.mem_filter.mp hb).2]
  exact Int.le_of_eq hSame

theorem eq_of_filter_time {xs ys : List α} (hXs : xs.Pairwise fun a b => time a ≤ time b)
    (hYs : ys.Pairwise fun a b => time a ≤ time b)
    (h : ∀ t, xs.filter (fun x => decide (time x = t)) = ys.filter fun x => decide (time x = t)) : xs = ys := by
  have hMem : ∀ x, x ∈ xs ↔ x ∈ ys := by
    intro x
    have hSame := congrArg (x ∈ ·) (h (time x))
    simpa using hSame
  induction xs generalizing ys with
  | nil =>
    cases ys with
    | nil => rfl
    | cons y ys => simpa using (hMem y).mpr List.mem_cons_self
  | cons x xs ih =>
    cases ys with
    | nil => simpa using (hMem x).mp List.mem_cons_self
    | cons y ys =>
      have hLe : time y ≤ time x := by
        rcases List.mem_cons.mp ((hMem x).mp List.mem_cons_self) with rfl | hTail
        · exact Int.le_refl _
        · exact (List.pairwise_cons.mp hYs).1 x hTail
      have hGe : time x ≤ time y := by
        rcases List.mem_cons.mp ((hMem y).mpr List.mem_cons_self) with rfl | hTail
        · exact Int.le_refl _
        · exact (List.pairwise_cons.mp hXs).1 y hTail
      have hTime : time x = time y := Int.le_antisymm hGe hLe
      have hHead := h (time y)
      rw [List.filter_cons, List.filter_cons, if_pos (by simp [hTime]), if_pos (by simp)] at hHead
      obtain ⟨rfl, hTails⟩ := List.cons.inj hHead
      have hRest : ∀ t, xs.filter (fun z => decide (time z = t)) = ys.filter fun z => decide (time z = t) := by
        intro t
        by_cases hT : time x = t
        · rw [← hT]
          exact hTails
        · have hAll := h t
          rwa [List.filter_cons, List.filter_cons, if_neg (by simp [hT]), if_neg (by simp [hT])] at hAll
      rw [ih (List.pairwise_cons.mp hXs).2 (List.pairwise_cons.mp hYs).2 hRest fun z => by
        have hSame := congrArg (z ∈ ·) (hRest (time z))
        simpa using hSame]

theorem sortByTime_congr {xs ys : List α}
    (h : ∀ t, xs.filter (fun x => decide (time x = t)) = ys.filter fun x => decide (time x = t)) :
    sortByTime time xs = sortByTime time ys := by
  refine eq_of_filter_time (sorted_sortByTime xs) (sorted_sortByTime ys) fun t => ?_
  rw [filter_time_sortByTime, filter_time_sortByTime, h]

theorem getLast?_insertByTime {x y : α} {xs : List α} (hSorted : xs.Pairwise fun a b => time a ≤ time b)
    (hLast : xs.getLast? = some y) : (insertByTime time x xs).getLast? =
      some (if time x ≤ time y then y else x) := by
  induction xs with
  | nil => cases hLast
  | cons z zs ih =>
    rw [List.pairwise_cons] at hSorted
    have hMem : y ∈ z :: zs := List.mem_of_getLast? hLast
    by_cases hLe : time x ≤ time z
    · have hY : time x ≤ time y := by
        rcases List.mem_cons.mp hMem with rfl | hTail
        · exact hLe
        · exact Int.le_trans hLe (hSorted.1 y hTail)
      rw [insertByTime_of_le hLe, List.getLast?_cons_cons, hLast, if_pos hY]
    · rw [insertByTime_of_not_le hLe]
      cases zs with
      | nil =>
        cases hLast
        rw [insertByTime_nil]
        simp [hLe]
      | cons w ws =>
        rw [List.getLast?_cons_cons] at hLast
        have hRest := ih hSorted.2 hLast
        cases hInsert : insertByTime time x (w :: ws) with
        | nil =>
          rw [hInsert] at hRest
          cases hRest
        | cons v vs => rw [List.getLast?_cons_cons, ← hInsert, hRest]

theorem isLatest_cons {x y : α} {xs : List α} : IsLatest time (y :: xs) x ↔
    (y = x ∧ ∀ z ∈ xs, time z < time y) ∨ IsLatest time xs x ∧ time y ≤ time x := by
  constructor
  · rintro ⟨before, after, hSplit, hBefore, hAfter⟩
    cases before with
    | nil =>
      cases hSplit
      exact .inl ⟨rfl, hAfter⟩
    | cons z before =>
      cases hSplit
      rw [List.forall_mem_cons] at hBefore
      exact .inr ⟨⟨before, after, rfl, hBefore.2, hAfter⟩, hBefore.1⟩
  · rintro (⟨rfl, hAfter⟩ | ⟨⟨before, after, rfl, hBefore, hAfter⟩, hLe⟩)
    · exact ⟨[], xs, rfl, by simp, hAfter⟩
    · exact ⟨y :: before, after, rfl, List.forall_mem_cons.mpr ⟨hLe, hBefore⟩, hAfter⟩

theorem IsLatest.mem {xs : List α} {x : α} (h : IsLatest time xs x) : x ∈ xs := by
  obtain ⟨before, after, rfl, _, _⟩ := h
  simp

theorem getLast?_sortByTime {xs : List α} {x : α} : (sortByTime time xs).getLast? = some x ↔ IsLatest time xs x := by
  induction xs generalizing x with
  | nil => simp [sortByTime, IsLatest]
  | cons y ys ih =>
    rw [isLatest_cons]
    rw [sortByTime_cons]
    cases hLast : (sortByTime time ys).getLast? with
    | none =>
      have hNil : ys = [] := by
        rw [List.getLast?_eq_none_iff] at hLast
        rw [List.eq_nil_iff_forall_not_mem]
        intro z hz
        have hMem : z ∈ sortByTime time ys := mem_sortByTime.mpr hz
        simp [hLast] at hMem
      subst hNil
      constructor
      · intro hSome
        cases hSome
        exact .inl ⟨rfl, by simp⟩
      · rintro (⟨rfl, _⟩ | ⟨hX, _⟩)
        · rfl
        · exact absurd hX.mem List.not_mem_nil
    | some z =>
      have hZ := ih.mp hLast
      rw [getLast?_insertByTime (sorted_sortByTime ys) hLast]
      constructor
      · intro hSome
        by_cases hLe : time y ≤ time z
        · rw [if_pos hLe] at hSome
          cases hSome
          exact .inr ⟨hZ, hLe⟩
        · rw [if_neg hLe] at hSome
          cases hSome
          refine .inl ⟨rfl, fun w hw => ?_⟩
          obtain ⟨before, after, rfl, hBefore, hAfter⟩ := hZ
          have hW : time w ≤ time z := by
            rcases List.mem_append.mp hw with hMem | hMem
            · exact hBefore w hMem
            · rcases List.mem_cons.mp hMem with rfl | hMem
              · exact Int.le_refl _
              · exact Int.le_of_lt (hAfter w hMem)
          omega
      · rintro (⟨rfl, hAll⟩ | ⟨hX, hLe⟩)
        · have hLt := hAll z hZ.mem
          rw [if_neg (by omega)]
        · have hSame : z = x := Option.some.inj (hLast.symm.trans (ih.mpr hX))
          rw [hSame, if_pos hLe]

end Sorting

/-! ## The last item of every key -/

section Keys

variable [DecidableEq κ] (key : α → κ)

/-- The last item of every key, in the order in which the keys occur first. -/
def latestBy (xs : List α) : List α :=
  xs.foldl (fun latest x => Table.upsert (fun other => decide (key other = key x)) x latest) []

theorem latestBy_append (xs : List α) (x : α) :
    latestBy key (xs ++ [x]) = Table.upsert (fun other => decide (key other = key x)) x (latestBy key xs) := by
  rw [latestBy, List.foldl_append]
  rfl

theorem nodup_latestBy (xs : List α) : ((latestBy key xs).map key).Nodup := by
  induction xs using List.reverseRecOn with
  | nil => exact List.nodup_nil
  | append_singleton xs x ih =>
    rw [latestBy_append]
    exact Table.nodup_upsert key ih x

theorem mem_latestBy {xs : List α} {x : α} :
    x ∈ latestBy key xs ↔ (xs.filter fun other => decide (key other = key x)).getLast? = some x := by
  induction xs using List.reverseRecOn with
  | nil => simp [latestBy]
  | append_singleton xs y ih =>
    rw [latestBy_append, Table.mem_upsert_iff key (nodup_latestBy key xs), List.filter_append]
    by_cases hKey : key y = key x
    · rw [List.filter_cons_of_pos (by simp [hKey]), List.filter_nil, List.getLast?_concat]
      constructor
      · rintro (rfl | ⟨_, hOther⟩)
        · rfl
        · exact absurd hKey.symm hOther
      · intro hSome
        exact .inl (Option.some.inj hSome).symm
    · rw [List.filter_cons_of_neg (by simp [hKey]), List.filter_nil, List.append_nil, ← ih]
      constructor
      · rintro (rfl | ⟨hMem, _⟩)
        · exact absurd rfl hKey
        · exact hMem
      · intro hMem
        exact .inr ⟨hMem, fun hSame => hKey hSame.symm⟩

theorem mem_latestBy_sortByTime {time : α → Int} {xs : List α} {x : α} : x ∈ latestBy key (sortByTime time xs) ↔
    IsLatest time (xs.filter fun other => decide (key other = key x)) x := by
  rw [mem_latestBy, filter_sortByTime, getLast?_sortByTime]

end Keys

end Latest
