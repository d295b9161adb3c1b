import Mathlib.Algebra.Ring.Nat
import Mathlib.Data.List.DropRight

/-!
# Text operations of JavaScript strings

Strings are sequences of Unicode scalar values here; unpaired surrogates do
not occur. String.length counts UTF-16 code units, so a character outside
the basic plane counts twice.
-/

namespace Js

/-- WhiteSpace and LineTerminator of ECMAScript; this is also the class \s. -/
def whitespace : List Char :=
  ['\t', '\n', '\x0b', '\x0c', '\r', ' ', '\u00a0', '\u1680', '\u2000', '\u2001', '\u2002', '\u2003',
   '\u2004', '\u2005', '\u2006', '\u2007', '\u2008', '\u2009', '\u200a', '\u2028', '\u2029', '\u202f',
   '\u205f', '\u3000', '\ufeff']

def isSpace (c : Char) : Bool := whitespace.contains c

def trimList (cs : List Char) : List Char := (cs.dropWhile isSpace).rdropWhile isSpace

def trim (s : String) : String := String.ofList (trimList s.toList)

def codeUnits (c : Char) : Nat := if c.val < 0x10000 then 1 else 2

def lengthOf (cs : List Char) : Nat := (cs.map codeUnits).sum

def length (s : String) : Nat := lengthOf s.toList

def isDigit (c : Char) : Bool := '0' ≤ c && c ≤ '9'

def isLower (c : Char) : Bool := 'a' ≤ c && c ≤ 'z'

def isUpper (c : Char) : Bool := 'A' ≤ c && c ≤ 'Z'

def isAlnum (c : Char) : Bool := isDigit c || isLower c || isUpper c

/-- The control characters of the class [\u0000-\u001f]. -/
def isControl (c : Char) : Bool := c.val < 0x20

def padStart (width : Nat) (s : String) : String :=
  String.ofList (List.replicate (width - s.toList.length) '0') ++ s

theorem trimList_context (cs : List Char) : ∃ before after, cs = before ++ trimList cs ++ after ∧
    (∀ c ∈ before, isSpace c = true) ∧ ∀ c ∈ after, isSpace c = true := by
  refine ⟨cs.takeWhile isSpace, (cs.dropWhile isSpace).rtakeWhile isSpace, ?_, ?_, ?_⟩
  · rw [trimList, List.append_assoc, List.rdropWhile_append_rtakeWhile, List.takeWhile_append_dropWhile]
  · intro c hc
    exact List.mem_takeWhile_imp hc
  · intro c hc
    exact List.mem_rtakeWhile_imp hc

theorem lengthOf_append (a b : List Char) : lengthOf (a ++ b) = lengthOf a + lengthOf b := by
  simp [lengthOf]

theorem lengthOf_trimList_le (cs : List Char) : lengthOf (trimList cs) ≤ lengthOf cs := by
  obtain ⟨before, after, hContext, _, _⟩ := trimList_context cs
  have hLength := congrArg lengthOf hContext
  rw [lengthOf_append, lengthOf_append] at hLength
  omega

theorem mem_of_mem_trimList {cs : List Char} {c : Char} (h : c ∈ trimList cs) : c ∈ cs := by
  obtain ⟨before, after, hContext, _, _⟩ := trimList_context cs
  rw [hContext]
  simp [h]

theorem trimList_eq_self {cs : List Char} (h : ∀ c ∈ cs, isSpace c = false) : trimList cs = cs := by
  have hDrop : cs.dropWhile isSpace = cs :=
    List.dropWhile_eq_self_iff.mpr fun hl => by simp [h _ (List.getElem_mem hl)]
  rw [trimList, hDrop, List.rdropWhile_eq_self_iff]
  intro hl
  simp [h _ (List.getLast_mem hl)]

theorem trimList_idempotent (cs : List Char) : trimList (trimList cs) = trimList cs := by
  have hHead : (trimList cs).dropWhile isSpace = trimList cs := by
    rw [List.dropWhile_eq_self_iff]
    intro hl
    have hPrefix : trimList cs <+: cs.dropWhile isSpace := List.rdropWhile_prefix isSpace _
    have hNe := List.ne_nil_of_length_pos (Nat.lt_of_lt_of_le hl hPrefix.length_le)
    rw [hPrefix.getElem hl, ← List.head_eq_getElem hNe]
    simp [List.head_dropWhile_not isSpace hNe]
  rw [trimList, hHead]
  exact List.rdropWhile_idempotent isSpace _

theorem trim_idempotent (s : String) : trim (trim s) = trim s := by
  rw [trim, trim, String.toList_ofList, trimList_idempotent]

end Js
