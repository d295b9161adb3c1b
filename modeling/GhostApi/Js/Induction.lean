import GhostApi.Js.Value

/-!
# Induction over values

What holds of every value whose items or members it holds of, holds of every
value.
-/

namespace Js

@[elab_as_elim]
theorem JsValue.induction {motive : JsValue → Prop} (undefined : motive .undefined) (null : motive .null)
    (bool : ∀ b, motive (.bool b)) (number : ∀ n, motive (.number n)) (string : ∀ s, motive (.string s))
    (array : ∀ items, (∀ item ∈ items, motive item) → motive (.array items))
    (object : ∀ fields, (∀ field ∈ fields, motive field.2) → motive (.object fields)) (value : JsValue) : motive value := by
  induction hSize : sizeOf value using Nat.strongRecOn generalizing value with
  | ind n ih =>
    cases value with
    | undefined => exact undefined
    | null => exact null
    | bool b => exact bool b
    | number n => exact number n
    | string s => exact string s
    | array items =>
      refine array items fun item hItem => ih (sizeOf item) ?_ item rfl
      have hLt := List.sizeOf_lt_of_mem hItem
      rw [← hSize, JsValue.array.sizeOf_spec]
      omega
    | object fields =>
      refine object fields fun field hField => ih (sizeOf field.2) ?_ field.2 rfl
      have hLt := List.sizeOf_lt_of_mem hField
      obtain ⟨key, member⟩ := field
      rw [Prod.mk.sizeOf_spec] at hLt
      rw [← hSize, JsValue.object.sizeOf_spec]
      simp only
      omega

@[elab_as_elim]
theorem Json.induction {motive : Json → Prop} (null : motive .null) (bool : ∀ b, motive (.bool b))
    (number : ∀ z, motive (.number z)) (fraction : ∀ text, motive (.fraction text)) (string : ∀ s, motive (.string s))
    (array : ∀ items, (∀ item ∈ items, motive item) → motive (.array items))
    (object : ∀ fields, (∀ field ∈ fields, motive field.2) → motive (.object fields)) (value : Json) : motive value := by
  induction hSize : sizeOf value using Nat.strongRecOn generalizing value with
  | ind n ih =>
    cases value with
    | null => exact null
    | bool b => exact bool b
    | number z => exact number z
    | fraction text => exact fraction text
    | string s => exact string s
    | array items =>
      refine array items fun item hItem => ih (sizeOf item) ?_ item rfl
      have hLt := List.sizeOf_lt_of_mem hItem
      rw [← hSize, Json.array.sizeOf_spec]
      omega
    | object fields =>
      refine object fields fun field hField => ih (sizeOf field.2) ?_ field.2 rfl
      have hLt := List.sizeOf_lt_of_mem hField
      obtain ⟨key, member⟩ := field
      rw [Prod.mk.sizeOf_spec] at hLt
      rw [← hSize, Json.object.sizeOf_spec]
      simp only
      omega

end Js
