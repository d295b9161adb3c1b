import GhostApi.Evidence.Text
import GhostApi.Js.Canonical
import GhostApi.Js.Objects
import GhostApi.Lib.Printed
import Mathlib.Data.List.Perm.Basic

/-!
# Values of an evidence report and their stable text

A report is hashed as a text with the members of its objects in the order of
localeCompare. Its strings are code units, so JSON.stringify escapes the
halves of surrogate pairs that stand alone.
-/

namespace GhostApi.Evidence

open Js Printed
open Policy (CodeUnit JsString units codePoints isHighSurrogate isLowSurrogate)

inductive Value
  | undefined
  | null
  | bool (b : Bool)
  | number (n : JsNumber)
  /-- What JSON.parse makes of a numeral that is too large. -/
  | infinity (negative : Bool)
  | string (s : JsString)
  | array (items : List Value)
  | object (fields : List (JsString × Value))

abbrev Members := List (JsString × Value)

/-- left.localeCompare(right) ≤ 0 -/
abbrev Collation := JsString → JsString → Bool

/-! ## JSON.stringify on a string -/

def hexDigits (n : Nat) : List Char :=
  [Json.hexDigit (n / 4096 % 16), Json.hexDigit (n / 256 % 16), Json.hexDigit (n / 16 % 16), Json.hexDigit (n % 16)]

def escapePoint : JsString → List Char
  | [unit] => if isSurrogate unit then '\\' :: 'u' :: hexDigits unit.toNat else Json.escape (Char.ofNat unit.toNat)
  | point => Json.escape (scalar point)

def quoteText (s : JsString) : List Char := '"' :: ((codePoints s).flatMap escapePoint ++ ['"'])

/-! ## stableStringify -/

/-- JSON.stringify on a value that is no object. -/
def numberJson : JsNumber → Json
  | .integer z => .number z
  | .fraction text => .fraction text
  | .nonFinite => .null

def sortMembers {α : Type} (collation : Collation) (members : List (JsString × α)) : List (JsString × α) :=
  members.mergeSort fun a b => collation a.1 b.1

mutual
def stableTree (collation : Collation) : Value → JsonTree JsString
  | .undefined | .null | .infinity _ => .atom (Json.print .null)
  | .bool b => .atom (Json.print (.bool b))
  | .number n => .atom (numberJson n).print
  | .string s => .text s
  | .array items => .array (stableItems collation items)
  | .object fields => .object (sortMembers collation (stableFields collation fields))

def stableItems (collation : Collation) : List Value → List (JsonTree JsString)
  | [] => []
  | item :: rest => stableTree collation item :: stableItems collation rest

/-- The members that are not undefined. -/
def stableFields (collation : Collation) : Members → List (JsString × JsonTree JsString)
  | [] => []
  | (_, .undefined) :: rest => stableFields collation rest
  | (key, value) :: rest => (key, stableTree collation value) :: stableFields collation rest
end

def stableStringify (collation : Collation) (value : Value) : String :=
  String.ofList (print quoteText (stableTree collation value))

/-! ## Induction -/

@[elab_as_elim]
theorem Value.induction {motive : Value → Prop} (undefined : motive .undefined) (null : motive .null)
    (bool : ∀ b, motive (.bool b)) (number : ∀ n, motive (.number n)) (infinity : ∀ negative, motive (.infinity negative))
    (string : ∀ s, motive (.string s)) (array : ∀ items, (∀ item ∈ items, motive item) → motive (.array items))
    (object : ∀ fields, (∀ field ∈ fields, motive field.2) → motive (.object fields)) (value : Value) : motive value := by
  induction hSize : sizeOf value using Nat.strongRecOn generalizing value with
  | ind n ih =>
    cases value with
    | undefined => exact undefined
    | null => exact null
    | bool b => exact bool b
    | number n => exact number n
    | infinity negative => exact infinity negative
    | string s => exact string s
    | array items =>
      refine array items fun item hItem => ih (sizeOf item) ?_ item rfl
      have hLt := List.sizeOf_lt_of_mem hItem
      rw [← hSize, Value.array.sizeOf_spec]
      omega
    | object fields =>
      refine object fields fun field hField => ih (sizeOf field.2) ?_ field.2 rfl
      have hLt := List.sizeOf_lt_of_mem hField
      obtain ⟨key, member⟩ := field
      rw [Prod.mk.sizeOf_spec] at hLt
      rw [← hSize, Value.object.sizeOf_spec]
      simp only
      omega

/-! ## A quoted text tells where it ends -/

/-- One code unit, or the two units of a surrogate pair. -/
inductive IsPoint : JsString → Prop
  | unit (unit : CodeUnit) : IsPoint [unit]
  | pair {high low : CodeUnit} (hHigh : isHighSurrogate high = true) (hLow : isLowSurrogate low = true) : IsPoint [high, low]

theorem codePoints_spec (s : JsString) : (∀ point ∈ codePoints s, IsPoint point) ∧ (codePoints s).flatten = s := by
  induction s using Policy.codePoints.induct with
  | case1 => exact ⟨List.forall_mem_nil _, rfl⟩
  | case2 unit => exact ⟨List.forall_mem_singleton.mpr (.unit unit), rfl⟩
  | case3 unit next rest hPair ih =>
    rw [codePoints, if_pos hPair, List.flatten_cons, ih.2]
    rw [Bool.and_eq_true] at hPair
    exact ⟨List.forall_mem_cons.mpr ⟨.pair hPair.1 hPair.2, ih.1⟩, rfl⟩
  | case4 unit next rest hPair ih =>
    rw [codePoints, if_neg hPair, List.flatten_cons, ih.2]
    exact ⟨List.forall_mem_cons.mpr ⟨.unit unit, ih.1⟩, rfl⟩

theorem surrogate_bounds {unit : CodeUnit} : (isHighSurrogate unit = true ↔ 0xd800 ≤ unit.toNat ∧ unit.toNat ≤ 0xdbff) ∧
    (isLowSurrogate unit = true ↔ 0xdc00 ≤ unit.toNat ∧ unit.toNat ≤ 0xdfff) := by
  simp only [isHighSurrogate, isLowSurrogate, Bool.and_eq_true, decide_eq_true_eq, UInt16.le_iff_toNat_le]
  exact ⟨Iff.rfl, Iff.rfl⟩

theorem isSurrogate_iff {unit : CodeUnit} : isSurrogate unit = true ↔ 0xd800 ≤ unit.toNat ∧ unit.toNat ≤ 0xdfff := by
  rw [isSurrogate, Bool.or_eq_true, surrogate_bounds.1, surrogate_bounds.2]
  omega

theorem toNat_ofNat {n : Nat} (h : n < 0xd800 ∨ 0xdfff < n ∧ n < 0x110000) : (Char.ofNat n).toNat = n := by
  have hValid : n.isValidChar := h
  rw [Char.ofNat, dif_pos hValid]
  rfl

theorem units_char {n : Nat} (h : n < 0xd800 ∨ 0xdfff < n ∧ n < 0x110000) :
    (Json.utf16 (Char.ofNat n)).map UInt16.ofNat = if n < 0x10000 then [UInt16.ofNat n]
      else [UInt16.ofNat (0xd800 + (n - 0x10000) / 0x400), UInt16.ofNat (0xdc00 + (n - 0x10000) % 0x400)] := by
  have hNat := toNat_ofNat h
  have hSmall : (Char.ofNat n).val < 0x10000 ↔ n < 0x10000 := by
    rw [UInt32.lt_iff_toNat_lt]
    change (Char.ofNat n).toNat < 65536 ↔ n < 65536
    rw [hNat]
  simp only [Json.utf16, hSmall, hNat]
  split <;> rfl

theorem utf16_lt (c : Char) : ∀ unit ∈ Json.utf16 c, unit < 65536 := by
  have hRange := Json.toNat_lt c
  have hSmall : c.val < 0x10000 ↔ c.toNat < 65536 := UInt32.lt_iff_toNat_lt
  intro unit hUnit
  rw [Json.utf16] at hUnit
  split at hUnit
  · rename_i hBasic
    rw [List.mem_singleton.mp hUnit]
    exact hSmall.mp hBasic
  · simp only [List.mem_cons, List.not_mem_nil, or_false] at hUnit
    omega

theorem units_injective : Function.Injective units := by
  intro s t h
  have hLt : ∀ text : String, ∀ unit ∈ text.toList.flatMap Json.utf16, unit < 65536 := by
    intro text unit hUnit
    obtain ⟨c, _, hc⟩ := List.mem_flatMap.mp hUnit
    exact utf16_lt c unit hc
  have hBack : ∀ text : String, (units text).map UInt16.toNat = text.toList.flatMap Json.utf16 := by
    intro text
    rw [units, List.map_map]
    refine (List.map_congr_left fun unit hUnit => ?_).trans (List.map_id _)
    exact UInt16.toNat_ofNat_of_lt' (hLt text unit hUnit)
  have hFlat : s.toList.flatMap Json.utf16 = t.toList.flatMap Json.utf16 := by rw [← hBack, h, hBack]
  exact String.toList_inj.mp (Json.flatMap_utf16_injective hFlat)

/-- Reads the code point at the front of an escaped text. -/
def readPoint (cs : List Char) : Option (JsString × List Char) :=
  if cs.take 3 = ['\\', 'u', 'd'] then
    some ([UInt16.ofNat (0xd000 + 256 * Json.hexValue (cs.getD 3 '0') + 16 * Json.hexValue (cs.getD 4 '0') +
      Json.hexValue (cs.getD 5 '0'))], cs.drop 6)
  else (Json.unescape cs).map fun read => ((Json.utf16 read.1).map UInt16.ofNat, read.2)

theorem take_escape (c : Char) (rest : List Char) : (Json.escape c ++ rest).take 3 ≠ ['\\', 'u', 'd'] := by
  rw [Json.escape]
  split_ifs with hQuote hSlash
  case neg => simp_all
  all_goals simp

theorem readPoint_escape (c : Char) (rest : List Char) :
    readPoint (Json.escape c ++ rest) = some ((Json.utf16 c).map UInt16.ofNat, rest) := by
  rw [readPoint, if_neg (take_escape c rest), Json.unescape_escape]
  rfl

theorem readPoint_escapePoint {point : JsString} (h : IsPoint point) (rest : List Char) :
    readPoint (escapePoint point ++ rest) = some (point, rest) := by
  cases h with
  | unit unit =>
    have hRange := unit.toNat_lt
    by_cases hSurrogate : isSurrogate unit = true
    · have hBounds := isSurrogate_iff.mp hSurrogate
      have hFirst : unit.toNat / 4096 % 16 = 13 := by omega
      have hD : Json.hexDigit 13 = 'd' := by decide
      have hValue : 0xd000 + 256 * (unit.toNat / 256 % 16) + 16 * (unit.toNat / 16 % 16) + unit.toNat % 16 = unit.toNat := by omega
      rw [escapePoint, if_pos hSurrogate, hexDigits, hFirst, hD, List.cons_append, List.cons_append, List.cons_append, readPoint,
        List.take_succ_cons, List.take_succ_cons, List.take_succ_cons, List.take_zero, if_pos rfl]
      simp only [List.cons_append, List.nil_append, List.getD_cons_succ, List.getD_cons_zero, List.drop_succ_cons, List.drop_zero,
        Json.hexValue_hexDigit (Nat.mod_lt _ (show 16 > 0 by decide)), hValue, UInt16.ofNat_toNat]
    · have hScalar : unit.toNat < 0xd800 ∨ 0xdfff < unit.toNat ∧ unit.toNat < 0x110000 := by
        rw [isSurrogate_iff] at hSurrogate
        omega
      have hSmall : unit.toNat < 0x10000 := hRange
      rw [escapePoint, if_neg hSurrogate, readPoint_escape, units_char hScalar, if_pos hSmall, UInt16.ofNat_toNat]
  | pair hHigh hLow =>
    rename_i high low
    rw [surrogate_bounds.1] at hHigh
    rw [surrogate_bounds.2] at hLow
    have hScalar : 0x10000 + (high.toNat - 0xd800) * 0x400 + (low.toNat - 0xdc00) < 0xd800 ∨
        0xdfff < 0x10000 + (high.toNat - 0xd800) * 0x400 + (low.toNat - 0xdc00) ∧
        0x10000 + (high.toNat - 0xd800) * 0x400 + (low.toNat - 0xdc00) < 0x110000 := by omega
    have hHighNat : 0xd800 + (0x10000 + (high.toNat - 0xd800) * 0x400 + (low.toNat - 0xdc00) - 0x10000) / 0x400 = high.toNat := by
      omega
    have hLowNat : 0xdc00 + (0x10000 + (high.toNat - 0xd800) * 0x400 + (low.toNat - 0xdc00) - 0x10000) % 0x400 = low.toNat := by
      omega
    rw [escapePoint, scalar, readPoint_escape, units_char hScalar, if_neg (by omega), hHighNat, hLowNat, UInt16.ofNat_toNat,
      UInt16.ofNat_toNat]
    · intro unit hUnit
      cases hUnit

theorem escapePoint_head (point : JsString) : ∃ c cs, escapePoint point = c :: cs ∧ c ≠ '"' := by
  unfold escapePoint
  split
  · split
    · exact ⟨_, _, rfl, by decide⟩
    · exact Json.escape_head _
  · exact Json.escape_head _

theorem points_append_inj {points others : List JsString} {xs ys : List Char} (hPoints : ∀ point ∈ points, IsPoint point)
    (hOthers : ∀ point ∈ others, IsPoint point)
    (h : points.flatMap escapePoint ++ '"' :: xs = others.flatMap escapePoint ++ '"' :: ys) : points = others ∧ xs = ys := by
  induction points generalizing others with
  | nil =>
    cases others with
    | nil => exact ⟨rfl, (List.cons.inj h).2⟩
    | cons other others =>
      obtain ⟨c, cs, hEscape, hHead⟩ := escapePoint_head other
      rw [List.flatMap_cons, hEscape] at h
      exact absurd (List.cons.inj h).1.symm hHead
  | cons point points ih =>
    cases others with
    | nil =>
      obtain ⟨c, cs, hEscape, hHead⟩ := escapePoint_head point
      rw [List.flatMap_cons, hEscape] at h
      exact absurd (List.cons.inj h).1 hHead
    | cons other others =>
      rw [List.forall_mem_cons] at hPoints hOthers
      rw [List.flatMap_cons, List.flatMap_cons, List.append_assoc, List.append_assoc] at h
      have hRead := congrArg readPoint h
      rw [readPoint_escapePoint hPoints.1, readPoint_escapePoint hOthers.1] at hRead
      obtain ⟨rfl, hRest⟩ := Prod.mk.inj (Option.some.inj hRead)
      obtain ⟨rfl, hTail⟩ := ih hPoints.2 hOthers.2 hRest
      exact ⟨rfl, hTail⟩

theorem quotes_text : Quotes quoteText where
  head s := ⟨_, rfl⟩
  append_inj s t xs ys h := by
    rw [quoteText, quoteText, List.cons_append, List.cons_append, List.append_assoc, List.append_assoc] at h
    obtain ⟨hPoints, hRest⟩ := points_append_inj (codePoints_spec s).1 (codePoints_spec t).1 (List.cons.inj h).2
    refine ⟨?_, hRest⟩
    rw [← (codePoints_spec s).2, hPoints, (codePoints_spec t).2]

end GhostApi.Evidence
