import GhostApi.Js.Canonical
import GhostApi.Js.JsonSize

/-!
# JSON.stringify without indentation

A member that is undefined is left out, an undefined item and a number that is
not finite are written as null.
-/

namespace Js

mutual
/-- What is written of a value; none stands for undefined. -/
def JsValue.written : JsValue → Option Json
  | .undefined => none
  | .null => some .null
  | .bool b => some (.bool b)
  | .number (.integer z) => some (.number z)
  | .number (.fraction text) => some (.fraction text)
  | .number .nonFinite => some .null
  | .string s => some (.string s)
  | .array items => some (.array (writtenItems items))
  | .object fields => some (.object (writtenFields fields))

def writtenItems : List JsValue → List Json
  | [] => []
  | item :: rest => item.written.getD .null :: writtenItems rest

def writtenFields : List (String × JsValue) → List (String × Json)
  | [] => []
  | (key, value) :: rest => match value.written with
    | some json => (key, json) :: writtenFields rest
    | none => writtenFields rest
end

def stringify (value : JsValue) : Option String := value.written.map fun json => String.ofList json.print

theorem mem_writtenFields {fields : List (String × JsValue)} {key : String} {value : JsValue} {json : Json}
    (h : (key, value) ∈ fields) (hWritten : value.written = some json) : (key, json) ∈ writtenFields fields := by
  induction fields with
  | nil => cases h
  | cons field rest ih =>
    obtain ⟨name, member⟩ := field
    rw [writtenFields]
    cases List.mem_cons.mp h with
    | inl hSame =>
      obtain ⟨rfl, rfl⟩ := Prod.mk.inj hSame
      rw [hWritten]
      exact List.mem_cons_self
    | inr hRest =>
      have hLater := ih hRest
      split
      · exact List.mem_cons_of_mem _ hLater
      · exact hLater

namespace Json

/-! ## Sizes -/

theorem length_le_utf8ByteSize (cs : List Char) : cs.length ≤ (String.ofList cs).utf8ByteSize := by
  rw [utf8ByteSize_ofList]
  induction cs with
  | nil => exact Nat.le_refl _
  | cons c cs ih =>
    have hPositive := Char.utf8Size_pos c
    rw [List.map_cons, List.sum_cons, List.length_cons]
    omega

theorem length_escape_pos (c : Char) : 1 ≤ (escape c).length := by
  obtain ⟨x, xs, hEscape, _⟩ := escape_head c
  rw [hEscape, List.length_cons]
  omega

theorem length_le_quote (s : String) : s.toList.length ≤ (quote s).toList.length := by
  have hChars : ∀ cs : List Char, cs.length ≤ (cs.flatMap escape).length := by
    intro cs
    induction cs with
    | nil => exact Nat.le_refl _
    | cons c cs ih =>
      have hPositive := length_escape_pos c
      rw [List.flatMap_cons, List.length_append, List.length_cons]
      omega
  have hText := hChars s.toList
  rw [quote_toList, List.length_cons, List.length_append]
  omega

theorem length_print_le_fields {key : String} {value : Json} {fields : List (String × Json)} (h : (key, value) ∈ fields) :
    value.print.length ≤ (printFields fields).length := by
  induction fields with
  | nil => cases h
  | cons field rest ih =>
    obtain ⟨name, member⟩ := field
    rw [printFields]
    simp only [List.length_cons, List.length_append]
    cases List.mem_cons.mp h with
    | inl hSame =>
      obtain ⟨rfl, rfl⟩ := Prod.mk.inj hSame
      omega
    | inr hRest =>
      have hLater := ih hRest
      omega

theorem length_print_le_object {key : String} {value : Json} {fields : List (String × Json)} (h : (key, value) ∈ fields) :
    value.print.length ≤ (print (.object fields)).length := by
  cases fields with
  | nil => cases h
  | cons field rest =>
    obtain ⟨name, member⟩ := field
    rw [print]
    simp only [List.length_cons, List.length_append]
    cases List.mem_cons.mp h with
    | inl hSame =>
      obtain ⟨rfl, rfl⟩ := Prod.mk.inj hSame
      omega
    | inr hRest =>
      have hLater := length_print_le_fields hRest
      omega

end Json

end Js
