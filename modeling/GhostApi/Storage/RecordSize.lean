import GhostApi.Js.JsonSize
import GhostApi.Validation

/-!
# Bytes of validated fields

How much of a file the identifiers, hashes, texts and numbers of the records
can take.
-/

namespace GhostApi.Validation

open Js Json

variable {depth : Nat}

theorem string_within {s : String} {max : Nat} (hControl : ∀ c ∈ s.toList, isControl c = false)
    (hLength : s.toList.length ≤ max) : Within depth (8 * max + 2) (.string s) := by
  have hQuote := quote_size hControl
  rw [Within, pretty]
  omega

theorem length_le_lengthOf (cs : List Char) : cs.length ≤ lengthOf cs := by
  induction cs with
  | nil => exact Nat.le_refl _
  | cons c cs ih =>
    have hUnits : 1 ≤ codeUnits c := by
      rw [codeUnits]
      split <;> omega
    have hCons : lengthOf (c :: cs) = codeUnits c + lengthOf cs := by simp [lengthOf]
    rw [hCons, List.length_cons]
    omega

theorem accepted_within {s : String} {max : Nat} (h : acceptsText max s = true) :
    Within depth (8 * max + 2) (.string s) := by
  obtain ⟨_, hLength, hControl, _⟩ := acceptsText_iff.mp h
  exact string_within hControl ((length_le_lengthOf _).trans hLength)

theorem text_within {max : Nat} (t : Text max) : Within depth (8 * max + 2) (.string t.val) :=
  accepted_within t.property.1

theorem identifier_within {s : String} (h : isIdentifier s = true) : Within depth 1026 (.string s) := by
  obtain ⟨hChars, _, hLength⟩ := identifier_chars h
  exact string_within (fun c hc => isControl_eq_false (hChars c hc)) hLength

theorem id_within (id : Identifier) : Within depth 1026 (.string id.val) := identifier_within id.property

theorem hash_within (h : Hash) : Within depth 514 (.string h.val) := by
  have hHash := h.property
  rw [isHash, Bool.and_eq_true, beq_iff_eq, List.all_eq_true] at hHash
  have hHex : (Sha256.hexChars.all fun c => !isControl c) = true := by decide
  refine string_within (fun c hc => ?_) (Nat.le_of_eq hHash.1)
  simpa using List.all_eq_true.mp hHex c (List.contains_iff_mem.mp (hHash.2 c hc))

theorem timestamp_within {s : String} (h : Date.isTimestamp s = true) : Within depth 194 (.string s) := by
  obtain ⟨hLength, hControl⟩ := Date.isTimestamp_chars h
  exact string_within hControl (Nat.le_of_eq hLength)

theorem number_within {n : Nat} (h : n ≤ MAX_SAFE_INTEGER) : Within depth 64 (.number n) :=
  number_size (e := 16) (by decide) (lt_of_le_of_lt h (by decide)) depth

theorem bool_within (b : Bool) : Within depth 5 (.bool b) := by
  rw [Within, pretty]
  cases b <;> decide

theorem constant_within {s : String} (h : plainName s = true) : Within depth 242 (.string s) := by
  rw [Within, pretty]
  exact plainName_size h

end GhostApi.Validation
