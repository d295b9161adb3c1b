import GhostApi.Js.Text
import Mathlib.Data.List.Induction

/-!
# Redaction of a stream of text

The output of a target is forwarded chunk by chunk. What may be the start of a
secret is held back; after a secret prefix nothing is forwarded before its run
of characters ends. Texts are sequences of UTF-16 code units here, so that a
chunk may also end inside a surrogate pair.
-/

namespace GhostApi.Egress

open Js

/-! ## Code units -/

def unitsOf (s : String) : List Nat := s.toList.map Char.toNat

def isTokenUnit (unit : Nat) : Bool :=
  (48 ≤ unit && unit ≤ 57) || (65 ≤ unit && unit ≤ 90) || (97 ≤ unit && unit ≤ 122) || (unitsOf "_.-").contains unit

def isSpaceUnit (unit : Nat) : Bool := (whitespace.map Char.toNat).contains unit

def isHighSurrogate (unit : Nat) : Bool := 0xd800 ≤ unit && unit ≤ 0xdbff

def isLowSurrogate (unit : Nat) : Bool := 0xdc00 ≤ unit && unit ≤ 0xdfff

/-- toLowerCase, as far as ASCII characters show in its result: U+212A gives k, and U+0130 gives i with a dot above. -/
def lowerUnit (unit : Nat) : List Nat :=
  if 65 ≤ unit ∧ unit ≤ 90 then [unit + 32] else if unit = 0x212a then [107]
  else if unit = 0x130 then [105, 0x307] else [unit]

def toLowerCase (text : List Nat) : List Nat := text.flatMap lowerUnit

def characters : List Nat → List (List Nat)
  | high :: low :: rest =>
    if isHighSurrogate high && isLowSurrogate low then [high, low] :: characters rest
    else [high] :: characters (low :: rest)
  | [unit] => [[unit]]
  | [] => []

/-! ## The redactor -/

def STREAM_SECRET_PREFIXES : List (List Nat) :=
  ["sk_live_", "sk_test_", "rk_live_", "ghp_", "github_pat_", "xoxb-", "sg."].map unitsOf

def bearer : List Nat := unitsOf "bearer "

inductive Redacting
  | token
  | nonSpace
  deriving DecidableEq

/-- The test of the regular expression on one character. -/
def Redacting.test : Redacting → List Nat → Bool
  | .token, character => character.any isTokenUnit
  | .nonSpace, character => character.any fun unit => !isSpaceUnit unit

/-- The variables of a redactor, and what it has written. -/
structure Redactor where
  written : List Nat
  pending : List Nat
  redacting : Option Redacting
  deriving DecidableEq

def Redactor.start : Redactor := ⟨[], [], none⟩

/-- The greatest length up to a limit of an end of the text with which the word starts. -/
def startingLength (word normalized : List Nat) : Nat → Nat
  | 0 => 0
  | length + 1 =>
    if (normalized.drop (normalized.length - (length + 1))).isPrefixOf word then length + 1
    else startingLength word normalized length

def suffixLength (normalized : List Nat) : Nat :=
  ((STREAM_SECRET_PREFIXES ++ [bearer]).map fun word =>
    startingLength word normalized (min (word.length - 1) normalized.length)).foldl max 0

def flushSafePrefix (redactor : Redactor) : Redactor :=
  let length := suffixLength (toLowerCase redactor.pending)
  if length < redactor.pending.length then
    { redactor with
      written := redactor.written ++ redactor.pending.take (redactor.pending.length - length)
      pending := redactor.pending.drop (redactor.pending.length - length) }
  else redactor

/-- A secret starts: what is pending before it is written with the mask. -/
def mask (redactor : Redactor) (word : List Nat) (text : String) (redacting : Redacting) : Redactor where
  written := redactor.written ++ redactor.pending.take (redactor.pending.length - word.length) ++ unitsOf text
  pending := []
  redacting := some redacting

def hold (redactor : Redactor) (character : List Nat) : Redactor :=
  let pending := redactor.pending ++ character
  let normalized := toLowerCase pending
  let redactor := { redactor with pending, redacting := none }
  match STREAM_SECRET_PREFIXES.find? fun word => word.isSuffixOf normalized with
  | some word => mask redactor word "***" .token
  | none =>
    if bearer.isSuffixOf normalized then mask redactor bearer "Bearer ***" .nonSpace
    else flushSafePrefix redactor

def consumeCharacter (redactor : Redactor) (character : List Nat) : Redactor :=
  if redactor.redacting.any fun redacting => redacting.test character then redactor
  else hold redactor character

def consume (redactor : Redactor) (text : List Nat) : Redactor := (characters text).foldl consumeCharacter redactor

def flush (redactor : Redactor) : Redactor :=
  { redactor with
    written := if redactor.redacting = none then redactor.written ++ redactor.pending else redactor.written
    pending := [] }

def redact (chunks : List (List Nat)) : List Nat := (flush (chunks.foldl consume .start)).written

example : redact [unitsOf "key=SK_li", unitsOf "ve_1234 ok"] = unitsOf "key=*** ok" := by decide +kernel

/-! ## What may start a secret -/

theorem words_ascii : ∀ word ∈ STREAM_SECRET_PREFIXES ++ [bearer], word ≠ [] ∧ ∀ unit ∈ word, unit < 128 := by decide +kernel

theorem startingLength_spec (word normalized : List Nat) (limit : Nat) :
    startingLength word normalized limit = 0 ∨
      normalized.drop (normalized.length - startingLength word normalized limit) <+: word := by
  induction limit with
  | zero => exact .inl rfl
  | succ length ih =>
    rw [startingLength]
    split
    · exact .inr (List.isPrefixOf_iff_prefix.mp ‹_›)
    · exact ih

theorem startingLength_le (word normalized : List Nat) (limit : Nat) : startingLength word normalized limit ≤ limit := by
  induction limit with
  | zero => exact Nat.le_refl 0
  | succ length ih =>
    rw [startingLength]
    split
    · exact Nat.le_refl _
    · omega

theorem le_startingLength {word normalized : List Nat} {limit length : Nat} (hLimit : length ≤ limit)
    (hStart : normalized.drop (normalized.length - length) <+: word) : length ≤ startingLength word normalized limit := by
  induction limit with
  | zero => omega
  | succ limit ih =>
    rw [startingLength]
    split
    · exact hLimit
    · rename_i hNot
      by_cases hSame : length = limit + 1
      · subst hSame
        exact absurd (List.isPrefixOf_iff_prefix.mpr hStart) hNot
      · exact ih (by omega)

theorem le_foldl_max {lengths : List Nat} {start : Nat} : start ≤ lengths.foldl max start ∧
    ∀ length ∈ lengths, length ≤ lengths.foldl max start := by
  induction lengths generalizing start with
  | nil => simp
  | cons first rest ih =>
    obtain ⟨hStart, hRest⟩ := @ih (max start first)
    rw [List.foldl_cons, List.forall_mem_cons]
    refine ⟨by omega, by omega, hRest⟩

theorem foldl_max_eq_zero {lengths : List Nat} (h : ∀ length ∈ lengths, length = 0) : lengths.foldl max 0 = 0 := by
  induction lengths with
  | nil => rfl
  | cons first rest ih =>
    rw [List.forall_mem_cons] at h
    rw [List.foldl_cons, h.1]
    exact ih h.2

theorem length_le_suffixLength {word start normalized : List Nat} (hWord : word ∈ STREAM_SECRET_PREFIXES ++ [bearer])
    (hStart : start <+: word) (hProper : start.length < word.length) (hEnd : start <:+ normalized) :
    start.length ≤ suffixLength normalized := by
  have hDrop : normalized.drop (normalized.length - start.length) = start := List.suffix_iff_eq_drop.mp hEnd |>.symm
  have hLength := hEnd.length_le
  have hWordLength : start.length ≤ startingLength word normalized (min (word.length - 1) normalized.length) :=
    le_startingLength (by omega) (by rwa [hDrop])
  exact hWordLength.trans (le_foldl_max.2 _ (List.mem_map_of_mem hWord))

section Foreign

variable {text character : List Nat}

theorem getLast_mem {word : List Nat} (hNe : character ≠ []) (hWord : word ≠ []) (h : word <:+ text ++ character) :
    ∃ unit ∈ character, unit ∈ word := by
  refine ⟨character.getLast hNe, List.getLast_mem hNe, ?_⟩
  have hLast := h.getLast hWord
  rw [List.getLast_append_of_ne_nil _ hNe] at hLast
  rw [← hLast]
  exact List.getLast_mem hWord

theorem not_suffix (hNe : character ≠ []) (hForeign : ∀ unit ∈ character, 128 ≤ unit) {word : List Nat}
    (hWord : word ∈ STREAM_SECRET_PREFIXES ++ [bearer]) : ¬word <:+ text ++ character := by
  intro h
  obtain ⟨hNonempty, hAscii⟩ := words_ascii word hWord
  obtain ⟨unit, hUnit, hMem⟩ := getLast_mem hNe hNonempty h
  have hLow := hForeign unit hUnit
  have hHigh := hAscii unit hMem
  omega

theorem suffixLength_foreign (hNe : character ≠ []) (hForeign : ∀ unit ∈ character, 128 ≤ unit) :
    suffixLength (text ++ character) = 0 := by
  refine foldl_max_eq_zero (List.forall_mem_map.mpr fun word hWord => ?_)
  by_contra hLength
  have hLe := startingLength_le word (text ++ character) (min (word.length - 1) (text ++ character).length)
  have hStart := (startingLength_spec word (text ++ character) _).resolve_left hLength
  have hEnd : (text ++ character).drop ((text ++ character).length -
      startingLength word (text ++ character) (min (word.length - 1) (text ++ character).length)) <:+ text ++ character :=
    List.drop_suffix _ _
  obtain ⟨unit, hUnit, hMem⟩ := getLast_mem hNe (by
    intro hNil
    have hNone := congrArg List.length hNil
    rw [List.length_drop, List.length_nil] at hNone
    omega) hEnd
  have hLow := hForeign unit hUnit
  have hHigh := (words_ascii word hWord).2 unit (hStart.subset hMem)
  omega

end Foreign

/-! ## Chunks -/

theorem lowerUnit_surrogate {unit : Nat} (h : 0xd800 ≤ unit) : lowerUnit unit = [unit] := by
  rw [lowerUnit, if_neg (by omega), if_neg (by omega), if_neg (by omega)]

theorem toLowerCase_append (text rest : List Nat) : toLowerCase (text ++ rest) = toLowerCase text ++ toLowerCase rest :=
  List.flatMap_append

theorem toLowerCase_surrogates {character : List Nat} (h : ∀ unit ∈ character, 0xd800 ≤ unit) :
    toLowerCase character = character := by
  induction character with
  | nil => rfl
  | cons unit rest ih =>
    rw [List.forall_mem_cons] at h
    rw [toLowerCase, List.flatMap_cons, lowerUnit_surrogate h.1]
    exact congrArg (unit :: ·) (ih h.2)

theorem hold_surrogates (redactor : Redactor) {character : List Nat} (hNe : character ≠ [])
    (h : ∀ unit ∈ character, 0xd800 ≤ unit) :
    hold redactor character = ⟨redactor.written ++ (redactor.pending ++ character), [], none⟩ := by
  have hForeign : ∀ unit ∈ character, 128 ≤ unit := fun unit hUnit => by
    have hLow := h unit hUnit
    omega
  have hLower : toLowerCase (redactor.pending ++ character) = toLowerCase redactor.pending ++ character := by
    rw [toLowerCase_append, toLowerCase_surrogates h]
  have hNone : STREAM_SECRET_PREFIXES.find? (fun word => word.isSuffixOf (toLowerCase redactor.pending ++ character)) = none := by
    refine List.find?_eq_none.mpr fun word hWord hEnd => ?_
    exact not_suffix hNe hForeign (List.mem_append_left _ hWord) (List.isSuffixOf_iff_suffix.mp hEnd)
  have hBearer : ¬bearer.isSuffixOf (toLowerCase redactor.pending ++ character) = true := by
    intro hEnd
    exact not_suffix hNe hForeign (List.mem_append_right _ List.mem_cons_self) (List.isSuffixOf_iff_suffix.mp hEnd)
  have hLength : 0 < (redactor.pending ++ character).length := by
    rw [List.length_append]
    have hPos := List.length_pos_iff.mpr hNe
    omega
  rw [hold]
  rw [hLower, hNone]
  dsimp only
  rw [if_neg hBearer, flushSafePrefix]
  dsimp only
  rw [hLower, suffixLength_foreign hNe hForeign, if_pos hLength, Nat.sub_zero, List.take_length, List.drop_length]

theorem surrogate_not_token {unit : Nat} (h : 0xd800 ≤ unit) : isTokenUnit unit = false := by
  have hAscii : ∀ other ∈ unitsOf "_.-", other < 128 := by decide +kernel
  have hOther : (unitsOf "_.-").contains unit = false := by
    rw [List.contains_eq_mem, decide_eq_false_iff_not]
    intro hMem
    have hLow := hAscii unit hMem
    omega
  rw [isTokenUnit, hOther]
  simp only [Bool.or_false, Bool.or_eq_false_iff, Bool.and_eq_false_iff, decide_eq_false_iff_not]
  omega

theorem surrogate_not_space {unit : Nat} (hLow : 0xd800 ≤ unit) (hHigh : unit ≤ 0xdfff) : isSpaceUnit unit = false := by
  have hSpaces : ∀ other ∈ whitespace.map Char.toNat, other < 0xd800 ∨ 0xdfff < other := by decide +kernel
  rw [isSpaceUnit, List.contains_eq_mem, decide_eq_false_iff_not]
  intro hMem
  have hOther := hSpaces unit hMem
  omega

theorem consumeCharacter_pair (redactor : Redactor) {high low : Nat} (hHigh : isHighSurrogate high = true)
    (hLow : isLowSurrogate low = true) :
    consumeCharacter redactor [high, low] = consumeCharacter (consumeCharacter redactor [high]) [low] := by
  rw [isHighSurrogate, Bool.and_eq_true, decide_eq_true_eq, decide_eq_true_eq] at hHigh
  rw [isLowSurrogate, Bool.and_eq_true, decide_eq_true_eq, decide_eq_true_eq] at hLow
  have hHold : hold redactor [high, low] = hold (hold redactor [high]) [low] := by
    rw [hold_surrogates redactor (List.cons_ne_nil _ _) (by simp; omega),
      hold_surrogates redactor (List.cons_ne_nil high []) (by simp; omega),
      hold_surrogates _ (List.cons_ne_nil low []) (by simp; omega)]
    simp
  have hNotTokens : isTokenUnit high = false ∧ isTokenUnit low = false :=
    ⟨surrogate_not_token (by omega), surrogate_not_token (by omega)⟩
  have hNotSpaces : isSpaceUnit high = false ∧ isSpaceUnit low = false :=
    ⟨surrogate_not_space (by omega) (by omega), surrogate_not_space (by omega) (by omega)⟩
  have hAfter : (hold redactor [high]).redacting = none := by
    rw [hold_surrogates redactor (List.cons_ne_nil high []) (by simp; omega)]
  rcases hRedacting : redactor.redacting with _ | redacting
  · simp [consumeCharacter, hRedacting, hHold, hAfter]
  · cases redacting with
    | token => simp [consumeCharacter, hRedacting, Redacting.test, hNotTokens, hHold, hAfter]
    | nonSpace => simp [consumeCharacter, hRedacting, Redacting.test, hNotSpaces]

def consumeUnit (redactor : Redactor) (unit : Nat) : Redactor := consumeCharacter redactor [unit]

theorem consume_eq (redactor : Redactor) (text : List Nat) : consume redactor text = text.foldl consumeUnit redactor := by
  rw [consume]
  induction text using characters.induct generalizing redactor with
  | case1 high low rest hPair ih =>
    rw [Bool.and_eq_true] at hPair
    rw [characters, if_pos (by rw [Bool.and_eq_true]; exact hPair), List.foldl_cons, ih,
      consumeCharacter_pair redactor hPair.1 hPair.2]
    rfl
  | case2 high low rest hPair ih =>
    rw [characters, if_neg hPair, List.foldl_cons, ih]
    rfl
  | case3 unit => rfl
  | case4 => rfl

theorem consume_append (redactor : Redactor) (text rest : List Nat) :
    consume redactor (text ++ rest) = consume (consume redactor text) rest := by
  rw [consume_eq, consume_eq, consume_eq, List.foldl_append]

theorem foldl_consume (redactor : Redactor) (chunks : List (List Nat)) :
    chunks.foldl consume redactor = consume redactor chunks.flatten := by
  induction chunks generalizing redactor with
  | nil => rfl
  | cons chunk chunks ih => rw [List.foldl_cons, ih, List.flatten_cons, consume_append]

/-! ## Runs with a secret prefix -/

theorem token_le {unit : Nat} (h : isTokenUnit unit = true) : unit ≤ 122 := by
  have hOthers : ∀ other ∈ unitsOf "_.-", other ≤ 122 := by decide +kernel
  simp only [isTokenUnit, Bool.or_eq_true, Bool.and_eq_true, decide_eq_true_eq, List.contains_iff_mem] at h
  rcases h with ((h | h) | h) | h
  · omega
  · omega
  · omega
  · exact hOthers unit h

theorem token_not_space {unit : Nat} (h : isTokenUnit unit = true) : isSpaceUnit unit = false := by
  have hSpaces : ∀ space ∈ whitespace.map Char.toNat, isTokenUnit space = false := by decide +kernel
  rw [isSpaceUnit, List.contains_eq_mem, decide_eq_false_iff_not]
  intro hMem
  rw [hSpaces unit hMem] at h
  cases h

theorem length_toLowerCase {text : List Nat} (h : ∀ unit ∈ text, isTokenUnit unit = true) :
    (toLowerCase text).length = text.length := by
  induction text with
  | nil => rfl
  | cons unit rest ih =>
    rw [List.forall_mem_cons] at h
    have hUnit : (lowerUnit unit).length = 1 := by
      have hLe := token_le h.1
      rw [lowerUnit]
      split
      · rfl
      · rw [if_neg (by omega), if_neg (by omega)]
        rfl
    have hRest := ih h.2
    rw [toLowerCase] at hRest ⊢
    rw [List.flatMap_cons, List.length_append, List.length_cons, hUnit, hRest, Nat.add_comm]

theorem consumeUnit_redacting {redactor : Redactor} {unit : Nat} (hRedacting : redactor.redacting ≠ none)
    (hUnit : isTokenUnit unit = true) : consumeUnit redactor unit = redactor := by
  rw [consumeUnit, consumeCharacter]
  rcases hSome : redactor.redacting with _ | redacting
  · exact absurd hSome hRedacting
  · cases redacting with
    | token => simp [Redacting.test, hUnit]
    | nonSpace => simp [Redacting.test, token_not_space hUnit]

theorem consume_redacting {redactor : Redactor} {text : List Nat} (hRedacting : redactor.redacting ≠ none)
    (hText : ∀ unit ∈ text, isTokenUnit unit = true) : consume redactor text = redactor := by
  rw [consume_eq]
  induction text with
  | nil => rfl
  | cons unit rest ih =>
    rw [List.forall_mem_cons] at hText
    rw [List.foldl_cons, consumeUnit_redacting hRedacting hText.1]
    exact ih hText.2

/-- Redacting already, or holding back what was seen of a prefix. -/
def Near (start : List Nat) (redactor : Redactor) : Prop := redactor.redacting ≠ none ∨ start <:+ redactor.pending

theorem flushSafePrefix_keeps {redactor : Redactor} {start : List Nat} (hEnd : start <:+ redactor.pending)
    (hLength : start.length ≤ suffixLength (toLowerCase redactor.pending)) : start <:+ (flushSafePrefix redactor).pending := by
  unfold flushSafePrefix
  generalize suffixLength (toLowerCase redactor.pending) = length at hLength ⊢
  have hDrop : redactor.pending.drop (redactor.pending.length - start.length) <:+
      redactor.pending.drop (redactor.pending.length - length) := List.drop_suffix_drop_left _ (by omega)
  rw [← List.suffix_iff_eq_drop.mp hEnd] at hDrop
  dsimp only
  split
  · exact hDrop
  · exact hEnd

section Prefixes

variable {redactor : Redactor} {start rest : List Nat} {unit : Nat}

theorem suffix_toLowerCase {text : List Nat} (h : start <:+ text) : toLowerCase start <:+ toLowerCase text := by
  obtain ⟨before, rfl⟩ := h
  rw [toLowerCase_append]
  exact List.suffix_append _ _

theorem near_step (hNear : Near start redactor) (hRun : ∀ other ∈ start ++ unit :: rest, isTokenUnit other = true)
    (hPrefix : toLowerCase (start ++ unit :: rest) ∈ STREAM_SECRET_PREFIXES) :
    Near (start ++ [unit]) (consumeUnit redactor unit) ∧ (rest = [] → (consumeUnit redactor unit).redacting ≠ none) := by
  have hUnit : isTokenUnit unit = true := hRun unit (by simp)
  by_cases hRedacting : redactor.redacting = none
  · have hEnd : start ++ [unit] <:+ redactor.pending ++ [unit] := by
      obtain ⟨before, hBefore⟩ := hNear.resolve_left (not_not.mpr hRedacting)
      exact ⟨before, by rw [← List.append_assoc, hBefore]⟩
    have hLower := suffix_toLowerCase hEnd
    have hHold : consumeUnit redactor unit = hold redactor [unit] := by
      rw [consumeUnit, consumeCharacter, hRedacting]
      rfl
    rw [hHold, hold]
    split
    · exact ⟨.inl (Option.some_ne_none _), fun _ => Option.some_ne_none _⟩
    · rename_i hNone
      split
      · exact ⟨.inl (Option.some_ne_none _), fun _ => Option.some_ne_none _⟩
      · have hNotWhole : rest ≠ [] := by
          rintro rfl
          exact List.find?_eq_none.mp hNone _ hPrefix (List.isSuffixOf_iff_suffix.mpr hLower)
        have hSplit : toLowerCase (start ++ unit :: rest) = toLowerCase (start ++ [unit]) ++ toLowerCase rest := by
          rw [← toLowerCase_append, List.append_assoc, List.singleton_append]
        have hRest : 0 < (toLowerCase rest).length := by
          rw [length_toLowerCase fun other hOther => hRun other (by simp [hOther])]
          exact List.length_pos_iff.mpr hNotWhole
        have hStartLength : (toLowerCase (start ++ [unit])).length = (start ++ [unit]).length := by
          refine length_toLowerCase fun other hOther => hRun other ?_
          simp only [List.mem_append, List.mem_cons] at hOther ⊢
          tauto
        have hLength := length_le_suffixLength (List.mem_append_left [bearer] hPrefix)
          (by rw [hSplit]; exact List.prefix_append _ _) (by rw [hSplit, List.length_append]; omega) hLower
        refine ⟨.inr (flushSafePrefix_keeps hEnd ?_), fun hNil => absurd hNil hNotWhole⟩
        rw [← hStartLength]
        exact hLength
  · rw [consumeUnit_redacting hRedacting hUnit]
    exact ⟨.inl hRedacting, fun _ => hRedacting⟩

/-- By induction on what is left of the prefix. -/
theorem redacting_of_near (hNear : Near start redactor) (hNe : rest ≠ [])
    (hRun : ∀ other ∈ start ++ rest, isTokenUnit other = true) (hPrefix : toLowerCase (start ++ rest) ∈ STREAM_SECRET_PREFIXES) :
    (rest.foldl consumeUnit redactor).redacting ≠ none := by
  induction rest generalizing start redactor with
  | nil => exact absurd rfl hNe
  | cons unit rest ih =>
    obtain ⟨hNext, hLast⟩ := near_step hNear hRun hPrefix
    rw [List.foldl_cons]
    by_cases hRest : rest = []
    · subst hRest
      exact hLast rfl
    · refine ih hNext hRest ?_ ?_
      · rwa [List.append_assoc, List.singleton_append]
      · rwa [List.append_assoc, List.singleton_append]

theorem redacting_of_prefix {text : List Nat} (hRun : ∀ other ∈ text, isTokenUnit other = true)
    (hPrefix : toLowerCase text ∈ STREAM_SECRET_PREFIXES) (redactor : Redactor) : (consume redactor text).redacting ≠ none := by
  have hNe : text ≠ [] := by
    rintro rfl
    exact (words_ascii _ (List.mem_append_left _ hPrefix)).1 rfl
  rw [consume_eq]
  have hNear : Near [] redactor := .inr List.nil_suffix
  exact redacting_of_near hNear hNe hRun hPrefix

end Prefixes

/-! ## Texts without secrets -/

section Quiet

variable {text : List Nat}

def Untouched (text : List Nat) (redactor : Redactor) : Prop :=
  redactor.redacting = none ∧ redactor.written ++ redactor.pending = text

theorem untouched_flushSafePrefix {redactor : Redactor} (h : Untouched text redactor) :
    Untouched text (flushSafePrefix redactor) := by
  rw [flushSafePrefix]
  split
  · refine ⟨h.1, ?_⟩
    rw [List.append_assoc, List.take_append_drop]
    exact h.2
  · exact h

theorem untouched_consumeUnit {redactor : Redactor} {unit : Nat} (h : Untouched text redactor)
    (hQuiet : ∀ word ∈ STREAM_SECRET_PREFIXES ++ [bearer], ¬word <:+: toLowerCase (text ++ [unit])) :
    Untouched (text ++ [unit]) (consumeUnit redactor unit) := by
  obtain ⟨hRedacting, hText⟩ := h
  have hEnd : redactor.pending ++ [unit] <:+ text ++ [unit] := ⟨redactor.written, by rw [← hText, List.append_assoc]⟩
  have hNot : ∀ word ∈ STREAM_SECRET_PREFIXES ++ [bearer], ¬word.isSuffixOf (toLowerCase (redactor.pending ++ [unit])) = true := by
    intro word hWord hSuffix
    have hInfix := (List.isSuffixOf_iff_suffix.mp hSuffix).trans (suffix_toLowerCase hEnd)
    exact hQuiet word hWord hInfix.isInfix
  have hNone : STREAM_SECRET_PREFIXES.find? (fun word => word.isSuffixOf (toLowerCase (redactor.pending ++ [unit]))) = none :=
    List.find?_eq_none.mpr fun word hWord => hNot word (List.mem_append_left _ hWord)
  rw [consumeUnit, consumeCharacter, hRedacting]
  change Untouched _ (hold redactor [unit])
  rw [hold]
  rw [hNone]
  rw [if_neg (hNot bearer (List.mem_append_right _ List.mem_cons_self))]
  refine untouched_flushSafePrefix ⟨rfl, ?_⟩
  rw [← List.append_assoc, hText]

theorem untouched_consume (hQuiet : ∀ word ∈ STREAM_SECRET_PREFIXES ++ [bearer], ¬word <:+: toLowerCase text) :
    Untouched text (consume .start text) := by
  rw [consume_eq]
  induction text using List.reverseRecOn with
  | nil => exact ⟨rfl, rfl⟩
  | append_singleton before unit ih =>
    rw [List.foldl_append]
    refine untouched_consumeUnit (ih fun word hWord hInfix => hQuiet word hWord ?_) hQuiet
    rw [toLowerCase_append]
    exact hInfix.trans (List.prefix_append _ _).isInfix

end Quiet

theorem redact_eq (chunks : List (List Nat)) : redact chunks = (flush (consume .start chunks.flatten)).written := by
  rw [redact, foldl_consume]

/-- **The output of a redacted stream.** It does not depend on the chunks; after the first secret prefix of a run the rest
of the run writes nothing and changes nothing; a text in which no secret starts is output as it is. -/
theorem redact_stream (chunks : List (List Nat)) : redact chunks = redact [chunks.flatten] ∧
    (∀ before start word rest after, chunks.flatten = before ++ (start ++ word ++ rest) ++ after →
      (∀ unit ∈ start ++ word ++ rest, isTokenUnit unit = true) → toLowerCase word ∈ STREAM_SECRET_PREFIXES →
      consume .start (before ++ (start ++ word ++ rest)) = consume .start (before ++ (start ++ word))) ∧
    ((∀ word ∈ STREAM_SECRET_PREFIXES ++ [bearer], ¬word <:+: toLowerCase chunks.flatten) → redact chunks = chunks.flatten) := by
  refine ⟨?_, ?_, ?_⟩
  · rw [redact_eq, redact_eq, List.flatten_singleton]
  · intro before start word rest _ _ hRun hPrefix
    have hWord : ∀ unit ∈ word, isTokenUnit unit = true := fun unit hUnit => hRun unit (by simp [hUnit])
    have hRest : ∀ unit ∈ rest, isTokenUnit unit = true := fun unit hUnit => hRun unit (by simp [hUnit])
    have hRedacting := redacting_of_prefix hWord hPrefix (consume .start (before ++ start))
    rw [← List.append_assoc, ← List.append_assoc, consume_append _ (before ++ start ++ word), consume_append _ (before ++ start)]
    exact consume_redacting hRedacting hRest
  · intro hQuiet
    obtain ⟨hRedacting, hText⟩ := untouched_consume hQuiet
    rw [redact_eq, flush]
    dsimp only
    rw [if_pos hRedacting, hText]

end GhostApi.Egress
