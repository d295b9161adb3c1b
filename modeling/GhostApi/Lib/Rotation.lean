import Mathlib.Data.List.Infix
import Mathlib.Logic.Function.Basic

/-!
# Files that are rotated

File 0 is appended to; file i is its i-th archive. A rotation removes the last
archive and renames the others one by one, so that no rename meets a file. What
the files hold, from the last archive to file 0, changes at the two ends only.
-/

namespace Rotation

variable {α : Type*}

/-- The lines of each file; none when there is no such file. -/
abbrev Files (α : Type*) := Nat → Option (List α)

namespace Files

def lines (files : Files α) (i : Nat) : List α := (files i).getD []

def remove (files : Files α) (i : Nat) : Files α := Function.update files i none

/-- Renaming file i to file i + 1; nothing happens when there is no file i. -/
def shift (files : Files α) (i : Nat) : Files α := match files i with
  | some content => Function.update (Function.update files (i + 1) (some content)) i none
  | none => files

def append (files : Files α) (line : α) : Files α := Function.update files 0 (some (files.lines 0 ++ [line]))

def content (files : Files α) : Nat → List α
  | 0 => files.lines 0
  | n + 1 => files.lines (n + 1) ++ content files n

section Steps

variable (files : Files α)

theorem lines_remove_self (i : Nat) : (files.remove i).lines i = [] := by
  rw [lines, remove, Function.update_self, Option.getD_none]

theorem remove_of_ne {i j : Nat} (h : j ≠ i) : files.remove i j = files j := Function.update_of_ne h ..

theorem shift_some {i : Nat} {content : List α} (h : files i = some content) :
    files.shift i = Function.update (Function.update files (i + 1) (some content)) i none := by
  rw [shift, h]

theorem shift_none {i : Nat} (h : files i = none) : files.shift i = files := by
  rw [shift, h]

theorem shift_of_lt {i j : Nat} (h : j < i) : files.shift i j = files j := by
  cases hFile : files i with
  | some content =>
    rw [shift_some files hFile, Function.update_of_ne (Nat.ne_of_lt h), Function.update_of_ne (by omega)]
  | none => rw [shift_none files hFile]

theorem shift_of_gt {i j : Nat} (h : i + 1 < j) : files.shift i j = files j := by
  cases hFile : files i with
  | some content => rw [shift_some files hFile, Function.update_of_ne (by omega), Function.update_of_ne (by omega)]
  | none => rw [shift_none files hFile]

theorem shift_self (i : Nat) : files.shift i i = none := by
  cases hFile : files i with
  | some content => rw [shift_some files hFile, Function.update_self]
  | none => rw [shift_none files hFile, hFile]

theorem shift_succ {i : Nat} (h : files (i + 1) = none) : files.shift i (i + 1) = files i := by
  cases hFile : files i with
  | some content => rw [shift_some files hFile, Function.update_of_ne (Nat.succ_ne_self i), Function.update_self]
  | none => rw [shift_none files hFile, h]

theorem append_zero (line : α) : files.append line 0 = some (files.lines 0 ++ [line]) := Function.update_self ..

theorem append_succ (line : α) (i : Nat) : files.append line (i + 1) = files (i + 1) :=
  Function.update_of_ne (Nat.succ_ne_zero i) _ files

end Steps

/-! ## What the files hold -/

section Content

variable {files others : Files α} {n : Nat}

theorem content_congr (h : ∀ i ≤ n, files.lines i = others.lines i) : files.content n = others.content n := by
  induction n with
  | zero => exact h 0 (Nat.le_refl 0)
  | succ n ih =>
    rw [content, content, h (n + 1) (Nat.le_refl _), ih fun i hi => h i (Nat.le_succ_of_le hi)]

theorem lines_subset_content {i : Nat} (h : i ≤ n) : files.lines i ⊆ files.content n := by
  induction n with
  | zero =>
    obtain rfl : i = 0 := by omega
    exact fun _ hMem => hMem
  | succ n ih =>
    intro line hMem
    rw [content, List.mem_append]
    by_cases hLast : i = n + 1
    · subst hLast
      exact .inl hMem
    · exact .inr (ih (by omega) hMem)

theorem content_ne_nil {i : Nat} (h : i ≤ n) (hLines : files.lines i ≠ []) : files.content n ≠ [] := by
  obtain ⟨line, hLine⟩ := List.exists_mem_of_ne_nil _ hLines
  exact List.ne_nil_of_mem (lines_subset_content h hLine)

theorem content_remove (files : Files α) (n : Nat) : (files.remove (n + 1)).content (n + 1) = files.content n := by
  rw [content, lines_remove_self, List.nil_append]
  refine content_congr fun i hi => ?_
  rw [lines, lines, remove_of_ne files (by omega)]

theorem content_shift {i : Nat} (hFree : files (i + 1) = none) (h : i < n) : (files.shift i).content n = files.content n := by
  induction n with
  | zero => omega
  | succ n ih =>
    by_cases hLast : i = n
    · subst hLast
      have hBelow : (files.shift i).content i = (files.remove i).content i := by
        refine content_congr fun j hj => ?_
        by_cases hSame : j = i
        · subst hSame
          rw [lines_remove_self, lines, shift_self, Option.getD_none]
        · rw [lines, lines, remove_of_ne files hSame, shift_of_lt files (by omega)]
      rw [content, content, hBelow, lines, shift_succ files hFree, lines, hFree, Option.getD_none, List.nil_append]
      cases i with
      | zero => rw [content, lines_remove_self, List.append_nil]; rfl
      | succ i => rw [content_remove]; rfl
    · rw [content, content, ih (by omega), lines, lines, shift_of_gt files (by omega)]

theorem content_append (files : Files α) (line : α) (n : Nat) : (files.append line).content n = files.content n ++ [line] := by
  induction n with
  | zero => rw [content, lines, append_zero, Option.getD_some]; rfl
  | succ n ih => rw [content, content, ih, ← List.append_assoc, lines, lines, append_succ]

end Content

end Files

end Rotation
