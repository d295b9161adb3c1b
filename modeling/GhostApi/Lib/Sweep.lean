import Mathlib.Data.List.Basic

/-!
# Sweeps over a table in place

A dynamic program with one row keeps the row in an array and computes the next
row over it. A downward sweep reads the neighbour below before it is
overwritten, so every entry comes from the old row; an upward sweep reads it
afterwards, so the neighbour is the new one.
-/

namespace Sweep

variable {α : Type} (d : α) (f : Nat → α → α → α)

/-- row[index] = f(index, row[index - 1], row[index]) -/
def update (row : List α) (index : Nat) : List α := row.set index (f index (row.getD (index - 1) d) (row.getD index d))

/-- for (index = k; index >= 1; index -= 1) -/
def down : Nat → List α → List α
  | 0, row => row
  | k + 1, row => down k (update d f row (k + 1))

/-- for (index = 1; index <= k; index += 1) -/
def up : Nat → List α → List α
  | 0, row => row
  | k + 1, row => update d f (up k row) (k + 1)

@[simp] theorem length_update (row : List α) (index : Nat) : (update d f row index).length = row.length :=
  List.length_set

@[simp] theorem length_down (k : Nat) (row : List α) : (down d f k row).length = row.length := by
  induction k generalizing row with
  | zero => rfl
  | succ k ih => rw [down, ih, length_update]

@[simp] theorem length_up (k : Nat) (row : List α) : (up d f k row).length = row.length := by
  induction k with
  | zero => rfl
  | succ k ih => rw [up, length_update, ih]

theorem getD_update_self {row : List α} {index : Nat} (h : index < row.length) :
    (update d f row index).getD index d = f index (row.getD (index - 1) d) (row.getD index d) := by
  simp [update, h]

theorem getD_update_of_ne {row : List α} {index i : Nat} (h : index ≠ i) :
    (update d f row index).getD i d = row.getD i d := by
  simp [update, h]

theorem getD_down_above {k i : Nat} (h : k < i) (row : List α) : (down d f k row).getD i d = row.getD i d := by
  induction k generalizing row with
  | zero => rfl
  | succ k ih => rw [down, ih (Nat.lt_of_succ_lt h), getD_update_of_ne d f (by omega)]

theorem getD_down {k i : Nat} {row : List α} (hPos : 0 < i) (hLe : i ≤ k) (hLength : k < row.length) :
    (down d f k row).getD i d = f i (row.getD (i - 1) d) (row.getD i d) := by
  induction k generalizing row with
  | zero => omega
  | succ k ih =>
    rw [down]
    by_cases hLast : i = k + 1
    · subst hLast
      rw [getD_down_above d f (Nat.lt_succ_self k), getD_update_self d f hLength]
    · have hBelow : i ≤ k := by omega
      have hRow : k < (update d f row (k + 1)).length := by
        rw [length_update]
        omega
      rw [ih hBelow hRow, getD_update_of_ne d f (by omega), getD_update_of_ne d f (by omega)]

theorem getD_up_above {k i : Nat} (h : k < i) (row : List α) : (up d f k row).getD i d = row.getD i d := by
  induction k with
  | zero => rfl
  | succ k ih => rw [up, getD_update_of_ne d f (by omega), ih (Nat.lt_of_succ_lt h)]

theorem getD_up_zero (k : Nat) (row : List α) : (up d f k row).getD 0 d = row.getD 0 d := by
  induction k with
  | zero => rfl
  | succ k ih => rw [up, getD_update_of_ne d f (by omega), ih]

theorem getD_up {k i : Nat} {row : List α} (hPos : 0 < i) (hLe : i ≤ k) (hLength : k < row.length) :
    (up d f k row).getD i d = f i ((up d f k row).getD (i - 1) d) (row.getD i d) := by
  induction k with
  | zero => omega
  | succ k ih =>
    rw [up, getD_update_of_ne d f (i := i - 1) (by omega)]
    by_cases hLast : i = k + 1
    · subst hLast
      rw [getD_update_self d f (by rwa [length_up]), getD_up_above d f (Nat.lt_succ_self k)]
    · rw [getD_update_of_ne d f (by omega), ih (by omega) (by omega)]

end Sweep
