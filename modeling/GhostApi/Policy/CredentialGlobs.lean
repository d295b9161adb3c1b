import GhostApi.Js.Value
import GhostApi.Lib.Sweep
import Mathlib.Algebra.BigOperators.Ring.List
import Mathlib.Computability.Language

/-!
# Credential globs

The forbidden credential patterns of a policy and the matcher that reads them.
A string is the list of its UTF-16 code units: the matcher takes the pattern
by code points and the value by code units, and the two views differ.
-/

namespace GhostApi.Policy

open Js

abbrev CodeUnit := UInt16

abbrev JsString := List CodeUnit

def units (s : String) : JsString := (s.toList.flatMap Json.utf16).map UInt16.ofNat

structure PolicyValidationError where
  path : String
  message : String
  deriving DecidableEq

def policyValidationError (path message : String) : PolicyValidationError := ⟨path, path ++ ": " ++ message⟩

def star : CodeUnit := 42

/-- The opening of an interpolation, a dollar sign and a brace. -/
def interpolation : JsString := [36, 123]

def isNewline (unit : CodeUnit) : Bool := unit == 13 || unit == 10

def validateCredentialGlob (value : Option JsString) (path : String) : Except PolicyValidationError JsString :=
  match value with
  | none => .error (policyValidationError path "must be a glob string between 1 and 128 characters.")
  | some value =>
    if value.length = 0 ∨ 128 < value.length then
      .error (policyValidationError path "must be a glob string between 1 and 128 characters.")
    else if interpolation <:+: value ∨ value.any isNewline then
      .error (policyValidationError path "must not contain interpolation or newlines.")
    else .ok value

/-! ## The matcher -/

def isHighSurrogate (unit : CodeUnit) : Bool := 0xd800 ≤ unit && unit ≤ 0xdbff

def isLowSurrogate (unit : CodeUnit) : Bool := 0xdc00 ≤ unit && unit ≤ 0xdfff

/-- The strings that for (const character of value) takes in turn. -/
def codePoints : JsString → List JsString
  | [] => []
  | [unit] => [[unit]]
  | unit :: next :: rest =>
    if isHighSurrogate unit && isLowSurrogate next then [unit, next] :: codePoints rest
    else [unit] :: codePoints (next :: rest)

def globStep (value : JsString) (states : List Bool) (character : JsString) : List Bool :=
  if character = [star] then Sweep.up false (fun _ before here => here || before) value.length states
  else
    (Sweep.down false (fun index before _ => before && (value[index - 1]?.map fun unit => [unit]) == some character)
      value.length states).set 0 false

def globMatches (pattern value : JsString) : Bool :=
  let states := true :: List.replicate value.length false
  ((codePoints pattern).foldl (globStep value) states).getD value.length false

/-! ## Decisions -/

structure PolicyDecision where
  allowed : Bool
  reason : String
  trace : List JsString

def allow (reason : String) (trace : List JsString) : PolicyDecision := ⟨true, reason, trace⟩

def deny (reason : String) (trace : List JsString) : PolicyDecision := ⟨false, reason, trace⟩

/-- The part of a policy that credential events are checked against. -/
structure GhostApiPolicy where
  forbid : List JsString

inductive PolicyEvent
  | credential (value : JsString)

def evaluateCredential (policy : GhostApiPolicy) (value : JsString) : PolicyDecision :=
  match policy.forbid.find? fun pattern => globMatches pattern value with
  | none => allow "No forbidden credential pattern matched."
      [units "credential input was checked without interpolation",
       units "no policy.credentials.forbid pattern matched"]
  | some pattern => deny "A forbidden credential pattern matched."
      [units "matched policy.credentials.forbid pattern " ++ pattern]

def evaluatePolicy (policy : GhostApiPolicy) : PolicyEvent → PolicyDecision
  | .credential value => evaluateCredential policy value

/-! ## What a pattern denotes -/

/-- The strings that a pattern stands for: every star is any string. -/
def globLanguage (pattern : JsString) : Language CodeUnit :=
  (pattern.map fun unit => if unit = star then ⊤ else {[unit]}).prod

/-- What one step of the matcher adds; a character of two units matches nothing. -/
def stepLanguage (character : JsString) : Language CodeUnit :=
  if character = [star] then ⊤ else if character.length = 1 then {character} else 0

/-- The states tell which prefixes of the value are in a language. -/
structure Tracks (value : JsString) (language : Language CodeUnit) (states : List Bool) : Prop where
  length : states.length = value.length + 1
  state : ∀ i ≤ value.length, states.getD i false = true ↔ value.take i ∈ language

variable {value : JsString} {language : Language CodeUnit} {states : List Bool}

theorem tracks_initial (value : JsString) : Tracks value 1 (true :: List.replicate value.length false) where
  length := by simp
  state i hi := by
    rw [Language.mem_one]
    cases i with
    | zero => simp
    | succ i =>
      have hNe : value.take (i + 1) ≠ [] := List.ne_nil_of_length_pos (by rw [List.length_take]; omega)
      have hState : (List.replicate value.length false)[i]?.getD false = false := by
        rw [List.getElem?_replicate]
        split <;> rfl
      simpa [hNe] using hState

theorem mem_mul_top {word : JsString} : word ∈ language * ⊤ ↔ ∃ head ∈ language, head <+: word := by
  constructor
  · intro h
    obtain ⟨head, hHead, tail, _, hSplit⟩ := Language.mem_mul.mp h
    exact ⟨head, hHead, tail, hSplit⟩
  · rintro ⟨head, hHead, tail, hSplit⟩
    exact Language.mem_mul.mpr ⟨head, hHead, tail, trivial, hSplit⟩

theorem take_succ_mem_mul_top {i : Nat} (hi : i + 1 ≤ value.length) :
    value.take (i + 1) ∈ language * ⊤ ↔ value.take (i + 1) ∈ language ∨ value.take i ∈ language * ⊤ := by
  simp only [mem_mul_top, List.prefix_take_iff]
  constructor
  · rintro ⟨head, hHead, hPrefix, hLength⟩
    rcases Nat.lt_or_ge i head.length with hLong | hShort
    · have hWhole : head = value.take (i + 1) := by
        rw [show i + 1 = head.length by omega]
        exact List.prefix_iff_eq_take.mp hPrefix
      exact .inl (hWhole ▸ hHead)
    · exact .inr ⟨head, hHead, hPrefix, hShort⟩
  · rintro (h | ⟨head, hHead, hPrefix, hLength⟩)
    · refine ⟨_, h, List.take_prefix _ _, ?_⟩
      rw [List.length_take]
      omega
    · exact ⟨head, hHead, hPrefix, by omega⟩

theorem take_zero_mem_mul_top : value.take 0 ∈ language * ⊤ ↔ value.take 0 ∈ language := by
  simp [mem_mul_top]

theorem Tracks.star (h : Tracks value language states) :
    Tracks value (language * ⊤) (globStep value states [Policy.star]) where
  length := by rw [globStep, if_pos rfl, Sweep.length_up, h.length]
  state i hi := by
    rw [globStep, if_pos rfl]
    induction i with
    | zero => rw [Sweep.getD_up_zero, h.state 0 hi, take_zero_mem_mul_top]
    | succ i ih =>
      rw [Sweep.getD_up _ _ (Nat.succ_pos i) hi (by rw [h.length]; omega), Bool.or_eq_true, h.state _ hi,
        Nat.succ_sub_one, ih (by omega), take_succ_mem_mul_top hi]

theorem take_succ_mem_mul_singleton {unit : CodeUnit} {i : Nat} (hi : i + 1 ≤ value.length) :
    value.take (i + 1) ∈ language * {[unit]} ↔ value.take i ∈ language ∧ value[i]? = some unit := by
  have hSplit : value.take (i + 1) = value.take i ++ [value[i]] := by simp
  rw [Language.mem_mul, hSplit, List.getElem?_eq_getElem hi]
  constructor
  · rintro ⟨head, hHead, _, rfl, hWord⟩
    obtain ⟨rfl, hUnit⟩ := List.append_inj' hWord rfl
    cases hUnit
    exact ⟨hHead, rfl⟩
  · rintro ⟨hHead, hUnit⟩
    cases hUnit
    exact ⟨_, hHead, _, rfl, rfl⟩

theorem globStep_literal (h : Tracks value language states) {character : JsString} (hStar : character ≠ [Policy.star])
    {i : Nat} (hi : i ≤ value.length) : (globStep value states character).getD i false = true ↔
      ∃ j unit, i = j + 1 ∧ character = [unit] ∧ value.take j ∈ language ∧ value[j]? = some unit := by
  have hLength : value.length < states.length := by
    rw [h.length]
    omega
  rw [globStep, if_neg hStar]
  cases i with
  | zero => simp [show 0 < states.length by omega]
  | succ j =>
    have hBefore := h.state j (by omega)
    have hRow : ((Sweep.down false (fun index before _ => before && (value[index - 1]?.map fun unit => [unit]) == some character)
        value.length states).set 0 false).getD (j + 1) false =
          (states.getD j false && (value[j]?.map fun unit => [unit]) == some character) := by
      rw [List.getD_eq_getElem?_getD, List.getElem?_set_ne (by omega), ← List.getD_eq_getElem?_getD,
        Sweep.getD_down _ _ (Nat.succ_pos j) hi hLength, Nat.succ_sub_one]
    rw [hRow, Bool.and_eq_true, hBefore, beq_iff_eq, Option.map_eq_some_iff]
    constructor
    · rintro ⟨hHead, unit, hUnit, rfl⟩
      exact ⟨j, unit, rfl, rfl, hHead, hUnit⟩
    · rintro ⟨_, unit, hIndex, rfl, hHead, hUnit⟩
      cases hIndex
      exact ⟨hHead, unit, hUnit, rfl⟩

theorem Tracks.literal (h : Tracks value language states) {character : JsString} (hStar : character ≠ [Policy.star]) :
    Tracks value (language * if character.length = 1 then {character} else 0) (globStep value states character) where
  length := by rw [globStep, if_neg hStar, List.length_set, Sweep.length_down, h.length]
  state i hi := by
    rw [globStep_literal h hStar hi]
    split
    · rename_i hOne
      obtain ⟨unit, rfl⟩ := List.length_eq_one_iff.mp hOne
      cases i with
      | zero =>
        constructor
        · rintro ⟨_, _, hIndex, _⟩
          cases hIndex
        · intro hMem
          obtain ⟨head, _, _, rfl, hWord⟩ := Language.mem_mul.mp hMem
          simp at hWord
      | succ j =>
        rw [take_succ_mem_mul_singleton hi]
        constructor
        · rintro ⟨_, _, hIndex, hUnit, hHead, hValue⟩
          cases hIndex
          cases hUnit
          exact ⟨hHead, hValue⟩
        · exact fun ⟨hHead, hValue⟩ => ⟨j, unit, rfl, rfl, hHead, hValue⟩
    · rename_i hOther
      constructor
      · rintro ⟨_, unit, _, rfl, _⟩
        exact absurd rfl hOther
      · intro hMem
        rw [mul_zero] at hMem
        exact hMem.elim

theorem Tracks.step (h : Tracks value language states) (character : JsString) :
    Tracks value (language * stepLanguage character) (globStep value states character) := by
  rw [stepLanguage]
  split
  · rename_i hStar
    exact hStar ▸ h.star
  · rename_i hStar
    exact h.literal hStar

theorem Tracks.run (h : Tracks value language states) (characters : List JsString) :
    Tracks value (language * (characters.map stepLanguage).prod) (characters.foldl (globStep value) states) := by
  induction characters generalizing language states with
  | nil => simpa using h
  | cons character rest ih =>
    rw [List.map_cons, List.prod_cons, ← mul_assoc]
    exact ih (h.step character)

/-! ## Code points and code units -/

/-- A character beyond the basic plane, as the iteration of a string finds it. -/
def hasPair : JsString → Bool
  | unit :: next :: rest => isHighSurrogate unit && isLowSurrogate next || hasPair (next :: rest)
  | _ => false

theorem codePoints_of_not_hasPair {pattern : JsString} (h : hasPair pattern = false) :
    codePoints pattern = pattern.map fun unit => [unit] := by
  induction pattern with
  | nil => rfl
  | cons unit rest ih =>
    cases rest with
    | nil => rfl
    | cons next rest =>
      rw [hasPair, Bool.or_eq_false_iff] at h
      rw [codePoints, h.1, if_neg Bool.false_ne_true, ih h.2]
      rfl

theorem exists_pair_of_hasPair {pattern : JsString} (h : hasPair pattern = true) :
    ∃ character ∈ codePoints pattern, character.length = 2 := by
  induction pattern with
  | nil => cases h
  | cons unit rest ih =>
    cases rest with
    | nil => cases h
    | cons next rest =>
      rw [codePoints]
      split
      · exact ⟨_, List.mem_cons_self, rfl⟩
      · rename_i hNone
        rw [hasPair, Bool.or_eq_true] at h
        obtain ⟨character, hMem, hLength⟩ := ih (h.resolve_left hNone)
        exact ⟨character, List.mem_cons_of_mem _ hMem, hLength⟩

theorem stepLanguage_singleton (unit : CodeUnit) :
    stepLanguage [unit] = if unit = star then ⊤ else {[unit]} := by
  simp [stepLanguage]

theorem globMatches_iff (pattern value : JsString) :
    globMatches pattern value = true ↔ hasPair pattern = false ∧ value ∈ globLanguage pattern := by
  have hRun := (tracks_initial value).run (codePoints pattern)
  rw [one_mul] at hRun
  rw [globMatches, hRun.state _ (Nat.le_refl _), List.take_length]
  cases hPair : hasPair pattern with
  | false =>
    rw [codePoints_of_not_hasPair hPair, List.map_map, globLanguage,
      show stepLanguage ∘ (fun unit => [unit]) = fun unit => if unit = star then ⊤ else {[unit]} from
        funext stepLanguage_singleton]
    simp
  | true =>
    obtain ⟨character, hMem, hLength⟩ := exists_pair_of_hasPair hPair
    have hZero : stepLanguage character = 0 := by
      rw [stepLanguage, if_neg (by rintro rfl; simp at hLength), if_neg (by omega)]
    rw [List.prod_eq_zero (hZero ▸ List.mem_map_of_mem hMem)]
    simp [Language.notMem_zero]

theorem globLanguage_of_plain {pattern : JsString} (h : star ∉ pattern) : globLanguage pattern = {pattern} := by
  induction pattern with
  | nil => rfl
  | cons unit rest ih =>
    rw [List.mem_cons, not_or] at h
    rw [globLanguage, List.map_cons, List.prod_cons, if_neg (Ne.symm h.1), ← globLanguage, ih h.2]
    ext word
    rw [Language.mem_mul]
    constructor
    · rintro ⟨_, rfl, _, rfl, rfl⟩
      rfl
    · rintro rfl
      exact ⟨_, rfl, _, rfl, rfl⟩

theorem evaluateCredential_denies_iff (policy : GhostApiPolicy) (value : JsString) :
    (evaluatePolicy policy (.credential value)).allowed = false ↔
      ∃ pattern ∈ policy.forbid, hasPair pattern = false ∧ value ∈ globLanguage pattern := by
  simp only [← globMatches_iff]
  rw [evaluatePolicy, evaluateCredential]
  cases hFind : policy.forbid.find? fun pattern => globMatches pattern value with
  | none => simpa [allow] using hFind
  | some pattern =>
    have hMatches := List.find?_some hFind
    simpa [deny] using ⟨pattern, List.mem_of_find?_eq_some hFind, hMatches⟩

/-! ## The globs of a policy -/

/-- A pattern with a character of two code units matches nothing, not even itself. -/
theorem globMatches_exact_iff (policy : GhostApiPolicy) (pattern value : JsString) :
    ((globMatches pattern value = true ↔ value ∈ globLanguage pattern) ↔
      ¬(hasPair pattern = true ∧ value ∈ globLanguage pattern)) ∧
    (star ∉ pattern →
      ((∀ value, globMatches pattern value = true ↔ value = pattern) ↔ hasPair pattern = false)) ∧
    (((evaluatePolicy policy (.credential value)).allowed = false ↔
        ∃ pattern ∈ policy.forbid, value ∈ globLanguage pattern) ↔
      ((∃ pattern ∈ policy.forbid, hasPair pattern = true ∧ value ∈ globLanguage pattern) →
        ∃ pattern ∈ policy.forbid, hasPair pattern = false ∧ value ∈ globLanguage pattern)) := by
  refine ⟨?_, fun hStar => ?_, ?_⟩
  · rw [globMatches_iff]
    cases hasPair pattern <;> simp
  · simp only [globMatches_iff, globLanguage_of_plain hStar]
    constructor
    · exact fun h => ((h pattern).mpr rfl).1
    · exact fun hPair value => ⟨fun h => h.2, fun h => ⟨hPair, h⟩⟩
  · rw [evaluateCredential_denies_iff]
    constructor
    · rintro h ⟨pattern, hMem, _, hValue⟩
      exact h.mpr ⟨pattern, hMem, hValue⟩
    · intro h
      constructor
      · exact fun ⟨pattern, hMem, _, hValue⟩ => ⟨pattern, hMem, hValue⟩
      · rintro ⟨pattern, hMem, hValue⟩
        cases hPair : hasPair pattern with
        | false => exact ⟨pattern, hMem, hPair, hValue⟩
        | true => exact h ⟨pattern, hMem, hPair, hValue⟩

example : globMatches (units "sk_*_key") (units "sk_live_key") = true := by decide +kernel

/-- A policy that forbids one emoji allows it. -/
theorem emoji_not_matched : validateCredentialGlob (some (units "😀")) "policy.credentials.forbid[0]" = .ok (units "😀") ∧
    units "😀" ∈ globLanguage (units "😀") ∧ globMatches (units "😀") (units "😀") = false ∧
      (evaluatePolicy ⟨[units "😀"]⟩ (.credential (units "😀"))).allowed = true := by
  have hUnits : units "😀" = [0xd83d, 0xde00] := by decide
  rw [hUnits]
  refine ⟨by decide, ?_, by decide, by decide⟩
  rw [globLanguage_of_plain (by decide)]
  rfl

end GhostApi.Policy
