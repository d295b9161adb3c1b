import Mathlib.Algebra.Ring.Nat
import Mathlib.Data.Nat.Log

/-!
# Non-negative integers in double precision

A sum of two integers is rounded to 53 significant bits, ties to even. Sums
below 2 ^ 53 are exact, and a sum from there on never rounds back below, so
comparing a rounded total with a safe integer decides the exact total.
-/

namespace Js

def MAX_SAFE_INTEGER : Nat := 2 ^ 53 - 1

def roundDouble (n : Nat) : Nat :=
  if n < 2 ^ 53 then n
  else
    let unit := 2 ^ (Nat.log 2 n - 52)
    let q := n / unit
    let r := n % unit
    (if 2 * r < unit ∨ 2 * r = unit ∧ q % 2 = 0 then q else q + 1) * unit

def add (a b : Nat) : Nat := roundDouble (a + b)

theorem roundDouble_of_lt {n : Nat} (h : n < 2 ^ 53) : roundDouble n = n := if_pos h

theorem le_roundDouble {n : Nat} (h : 2 ^ 53 ≤ n) : 2 ^ 53 ≤ roundDouble n := by
  have hLog : 53 ≤ Nat.log 2 n := (Nat.le_log_iff_pow_le (by decide) (by omega)).mpr h
  have hPow : 2 ^ Nat.log 2 n ≤ n := Nat.pow_log_le_self 2 (by omega)
  have hSplit : 2 ^ Nat.log 2 n = 2 ^ 52 * 2 ^ (Nat.log 2 n - 52) := by
    rw [← Nat.pow_add]
    congr 1
    omega
  have hUnit : 2 ≤ 2 ^ (Nat.log 2 n - 52) := by
    calc 2 = 2 ^ 1 := rfl
      _ ≤ 2 ^ (Nat.log 2 n - 52) := Nat.pow_le_pow_right (by decide) (by omega)
  have hQuotient : 2 ^ 52 ≤ n / 2 ^ (Nat.log 2 n - 52) := by
    rw [Nat.le_div_iff_mul_le (by omega), ← hSplit]
    exact hPow
  rw [roundDouble, if_neg (by omega)]
  generalize 2 ^ (Nat.log 2 n - 52) = unit at *
  calc 2 ^ 53 = 2 ^ 52 * 2 := by decide
    _ ≤ n / unit * unit := Nat.mul_le_mul hQuotient hUnit
    _ ≤ _ := Nat.mul_le_mul_right unit (by split <;> omega)

theorem roundDouble_mul {m e : Nat} (hLow : 2 ^ 52 ≤ m) (hHigh : m < 2 ^ 53) : roundDouble (m * 2 ^ e) = m * 2 ^ e := by
  by_cases hSmall : m * 2 ^ e < 2 ^ 53
  · exact roundDouble_of_lt hSmall
  · have hLog : Nat.log 2 (m * 2 ^ e) = 52 + e := by
      refine Nat.log_eq_of_pow_le_of_lt_pow ?_ ?_
      · rw [Nat.pow_add]
        exact Nat.mul_le_mul_right _ hLow
      · have hBits : 2 ^ (52 + e + 1) = 2 ^ 53 * 2 ^ e := by rw [← Nat.pow_add, Nat.add_right_comm]
        rw [hBits]
        exact Nat.mul_lt_mul_of_pos_right hHigh (Nat.two_pow_pos e)
    have hUnit : 0 < 2 ^ e := Nat.two_pow_pos e
    rw [roundDouble, if_neg hSmall, hLog, Nat.add_sub_cancel_left]
    dsimp only
    rw [Nat.mul_div_cancel m hUnit, Nat.mul_mod_left, if_pos (.inl (by omega))]

theorem roundDouble_large {n : Nat} (h : 2 ^ 53 ≤ n) : ∃ m e, 2 ^ 52 ≤ m ∧ m ≤ 2 ^ 53 ∧ roundDouble n = m * 2 ^ e := by
  have hPow : 2 ^ Nat.log 2 n ≤ n := Nat.pow_log_le_self 2 (by omega)
  have hNext : n < 2 ^ (Nat.log 2 n + 1) := Nat.lt_pow_succ_log_self (by decide) n
  have hLog : 53 ≤ Nat.log 2 n := (Nat.le_log_iff_pow_le (by decide) (by omega)).mpr h
  have hLow : 2 ^ 52 ≤ n / 2 ^ (Nat.log 2 n - 52) := by
    rw [Nat.le_div_iff_mul_le (Nat.two_pow_pos _), ← Nat.pow_add]
    exact (Nat.pow_le_pow_right (by decide) (by omega)).trans hPow
  have hHigh : n / 2 ^ (Nat.log 2 n - 52) < 2 ^ 53 := by
    rw [Nat.div_lt_iff_lt_mul (Nat.two_pow_pos _), ← Nat.pow_add]
    exact hNext.trans_le (Nat.pow_le_pow_right (by decide) (by omega))
  rw [roundDouble, if_neg (Nat.not_lt.mpr h)]
  refine ⟨_, Nat.log 2 n - 52, ?_, ?_, rfl⟩
  · split <;> omega
  · split <;> omega

theorem roundDouble_roundDouble (n : Nat) : roundDouble (roundDouble n) = roundDouble n := by
  by_cases hSmall : n < 2 ^ 53
  · rw [roundDouble_of_lt hSmall, roundDouble_of_lt hSmall]
  · obtain ⟨m, e, hLow, hHigh, hRound⟩ := roundDouble_large (Nat.le_of_not_lt hSmall)
    rw [hRound]
    by_cases hTop : m = 2 ^ 53
    · -- the quotient has become a power of two
      have hBits : 2 ^ 53 = 2 ^ 52 * 2 := by decide
      have hPower : m * 2 ^ e = 2 ^ 52 * 2 ^ (e + 1) := by
        rw [hTop, hBits, Nat.mul_assoc, ← Nat.pow_succ']
      rw [hPower]
      exact roundDouble_mul (Nat.le_refl _) (by decide)
    · exact roundDouble_mul hLow (by omega)

theorem add_le_iff {a b limit : Nat} (h : limit ≤ MAX_SAFE_INTEGER) : add a b ≤ limit ↔ a + b ≤ limit := by
  have hSafe : limit < 2 ^ 53 := Nat.lt_of_le_of_lt h (by decide)
  by_cases hLt : a + b < 2 ^ 53
  · rw [add, roundDouble_of_lt hLt]
  · have hRound := le_roundDouble (Nat.le_of_not_lt hLt)
    rw [add]
    omega

theorem foldl_add_le_iff {limit : Nat} (h : limit ≤ MAX_SAFE_INTEGER) (values : List Nat) (start : Nat) :
    values.foldl add start ≤ limit ↔ start + values.sum ≤ limit := by
  induction values generalizing start with
  | nil => simp
  | cons v values ih =>
    rw [List.foldl_cons, ih, List.sum_cons]
    constructor
    · intro hSum
      have hFirst : add start v ≤ limit := by omega
      have hExact := (add_le_iff h).mp hFirst
      rw [add, roundDouble_of_lt (by simp only [MAX_SAFE_INTEGER] at h; omega)] at hSum
      omega
    · intro hSum
      rw [add, roundDouble_of_lt (by simp only [MAX_SAFE_INTEGER] at h; omega)]
      omega

end Js
