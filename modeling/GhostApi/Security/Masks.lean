import GhostApi.Security.Secrets

/-!
# What masking leaves behind

Every mask contains an asterisk. A text that masking changes therefore has an
asterisk afterwards.
-/

namespace GhostApi.Security

open Js Js.Pattern

def Masked (before after : List Char) : Prop := after = before ∨ '*' ∈ after

theorem Masked.trans {first second third : List Char} (h : Masked first second) (hNext : Masked second third) : Masked first third := by
  cases hNext with
  | inl hSame => exact hSame ▸ h
  | inr hAsterisk => exact .inr hAsterisk

theorem masked_replaceAll (p : Pattern) {mask : List Char} (h : '*' ∈ mask) (cs : List Char) : Masked cs (p.replaceAll mask cs) := by
  induction cs with
  | nil => exact .inl rfl
  | cons c cs ih =>
    rw [replaceAll, replaceGo]
    cases p.matchPrefix (c :: cs) with
    | some rest => exact .inr (List.mem_append_left _ h)
    | none =>
      cases ih with
      | inl hSame => exact .inl (congrArg (c :: ·) hSame)
      | inr hAsterisk => exact .inr (List.mem_cons_of_mem c hAsterisk)

theorem masked_sanitizeChars (cs : List Char) : Masked cs (sanitizeChars cs) := by
  have hFold : ∀ (patterns : List Pattern) (start : List Char),
      Masked start (patterns.foldl (fun result pattern => pattern.replaceAll MASK result) start) := by
    intro patterns
    induction patterns with
    | nil => exact fun _ => .inl rfl
    | cons p patterns ih => exact fun start => (masked_replaceAll p (by decide) start).trans (ih _)
  exact (masked_replaceAll bearerPattern (by decide) cs).trans (hFold TOKEN_PATTERNS _)

theorem masked_sanitizeSecretString (s : String) : sanitizeSecretString s = s ∨ '*' ∈ (sanitizeSecretString s).toList := by
  rw [sanitizeSecretString, String.toList_ofList]
  cases masked_sanitizeChars s.toList with
  | inl hSame =>
    rw [hSame, String.ofList_toList]
    exact .inl rfl
  | inr hAsterisk => exact .inr hAsterisk

end GhostApi.Security
