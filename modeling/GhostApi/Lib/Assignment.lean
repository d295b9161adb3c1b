import Mathlib.Data.List.Nodup

/-!
# Assigning to the members of a record

A record lists its members under their keys. An assignment replaces the value
under a key where it stands, or adds the member at the end.
-/

namespace Assignment

variable {κ α : Type*} [DecidableEq κ]

def keys (fields : List (κ × α)) : List κ := fields.map Prod.fst

def assign (fields : List (κ × α)) (key : κ) (value : α) : List (κ × α) :=
  if key ∈ keys fields then fields.map fun field => if field.1 = key then (key, value) else field
  else fields ++ [(key, value)]

variable {fields : List (κ × α)} {key name : κ} {a b : α}

theorem assign_of_mem (h : key ∈ keys fields) :
    assign fields key a = fields.map fun field => if field.1 = key then (key, a) else field := if_pos h

theorem assign_of_not_mem (h : key ∉ keys fields) : assign fields key a = fields ++ [(key, a)] := if_neg h

theorem keys_assign : keys (assign fields key a) = if key ∈ keys fields then keys fields else keys fields ++ [key] := by
  by_cases hKey : key ∈ keys fields
  · rw [assign_of_mem hKey, if_pos hKey, keys, keys, List.map_map]
    refine List.map_congr_left fun field _ => ?_
    rw [Function.comp_apply]
    split
    · rename_i hSame
      exact hSame.symm
    · rfl
  · rw [assign_of_not_mem hKey, if_neg hKey, keys, List.map_append]
    rfl

theorem mem_keys_assign : name ∈ keys (assign fields key a) ↔ name = key ∨ name ∈ keys fields := by
  rw [keys_assign]
  split
  · rename_i hKey
    constructor
    · exact .inr
    · intro h
      cases h with
      | inl hSame => exact hSame ▸ hKey
      | inr hOld => exact hOld
  · simp [or_comm]

theorem nodup_assign (h : (keys fields).Nodup) : (keys (assign fields key a)).Nodup := by
  rw [keys_assign]
  split
  · exact h
  · rename_i hKey
    rw [List.nodup_append]
    refine ⟨h, List.nodup_singleton key, ?_⟩
    rintro name hName _ hLast rfl
    rw [List.mem_singleton.mp hLast] at hName
    exact hKey hName

theorem forall_assign {P : κ × α → Prop} (h : ∀ field ∈ fields, P field) (hNew : P (key, a)) : ∀ field ∈ assign fields key a, P field := by
  by_cases hKey : key ∈ keys fields
  · rw [assign_of_mem hKey, List.forall_mem_map]
    intro field hField
    split
    · exact hNew
    · exact h field hField
  · rw [assign_of_not_mem hKey, List.forall_mem_append]
    exact ⟨h, List.forall_mem_singleton.mpr hNew⟩

theorem map_of_not_mem (h : key ∉ keys fields) : (fields.map fun field => if field.1 = key then (key, a) else field) = fields := by
  refine (List.map_congr_left fun field hField => if_neg ?_).trans (List.map_id _)
  rintro rfl
  exact h (List.mem_map_of_mem hField)

theorem assign_assign : assign (assign fields key a) key b = assign fields key b := by
  rw [assign_of_mem (mem_keys_assign.mpr (.inl rfl))]
  by_cases hKey : key ∈ keys fields
  · rw [assign_of_mem hKey, assign_of_mem hKey, List.map_map]
    refine List.map_congr_left fun field _ => ?_
    rw [Function.comp_apply]
    split
    · rw [if_pos rfl]
    · rfl
  · rw [assign_of_not_mem hKey, assign_of_not_mem hKey, List.map_append, map_of_not_mem hKey]
    simp

theorem assign_comm (hNe : name ≠ key) (hKey : key ∈ keys fields) :
    assign (assign fields key a) name b = assign (assign fields name b) key a := by
  rw [assign_of_mem (mem_keys_assign.mpr (.inr hKey)), assign_of_mem hKey]
  have hKeys : name ∈ keys (fields.map fun field => if field.1 = key then (key, a) else field) ↔ name ∈ keys fields := by
    rw [← assign_of_mem hKey, mem_keys_assign]
    exact or_iff_right hNe
  by_cases hName : name ∈ keys fields
  · rw [assign_of_mem (hKeys.mpr hName), assign_of_mem hName, List.map_map, List.map_map]
    refine List.map_congr_left fun field _ => ?_
    rw [Function.comp_apply, Function.comp_apply]
    by_cases hFirst : field.1 = key
    · have hOther : field.1 ≠ name := fun h => hNe (h.symm.trans hFirst)
      rw [if_pos hFirst, if_neg hNe.symm, if_neg hOther, if_pos hFirst]
    · by_cases hSecond : field.1 = name
      · rw [if_neg hFirst, if_pos hSecond, if_neg hNe]
      · rw [if_neg hFirst, if_neg hSecond, if_neg hFirst]
  · rw [assign_of_not_mem (hKeys.not.mpr hName), assign_of_not_mem hName, List.map_append, List.map_singleton, if_neg hNe]

theorem assign_self (distinct : (keys fields).Nodup) (h : (key, a) ∈ fields) : assign fields key a = fields := by
  rw [assign_of_mem (List.mem_map_of_mem h)]
  refine (List.map_congr_left fun field hField => ?_).trans (List.map_id _)
  split
  · rename_i hKey
    exact List.inj_on_of_nodup_map distinct h hField hKey.symm
  · rfl

end Assignment
