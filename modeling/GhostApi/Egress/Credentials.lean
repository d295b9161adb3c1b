import GhostApi.Egress.Redactor

/-!
# Bearer credentials in a stream

A text is sanitized where Bearer, any white space and a credential follow one
another. The redactor knows one blank between them only, and does not see the
word at all while it redacts something else.
-/

namespace GhostApi.Egress

open Js

/-- A match of the pattern for bearer credentials in a text. -/
structure BearerMatch where
  before : List Nat
  word : List Nat
  separator : List Nat
  credential : List Nat
  after : List Nat
  word_eq : toLowerCase word = unitsOf "bearer"
  separator_ne : separator ≠ []
  separator_space : ∀ unit ∈ separator, isSpaceUnit unit = true
  credential_ne : credential ≠ []
  credential_nonspace : ∀ unit ∈ credential, isSpaceUnit unit = false
  after_space : ∀ unit ∈ after.head?, isSpaceUnit unit = true

def BearerMatch.text (m : BearerMatch) (credential : List Nat) : List Nat :=
  m.before ++ m.word ++ m.separator ++ credential ++ m.after

def BearerMatch.Hidden (m : BearerMatch) : Prop :=
  ∀ credential chunks others, credential ≠ [] → (∀ unit ∈ credential, isSpaceUnit unit = false) →
    chunks.flatten = m.text m.credential → others.flatten = m.text credential → redact chunks = redact others

def BearerMatch.Recognised (m : BearerMatch) : Prop :=
  m.separator = unitsOf " " ∧ (consume .start m.before).redacting = none

variable {redactor : Redactor} {text start word : List Nat} {unit : Nat}

theorem bearer_eq : bearer = unitsOf "bearer" ++ [32] ∧ unitsOf "bearer" ≠ [] ∧ 32 ∉ unitsOf "_-." ∧
    ∀ letter ∈ unitsOf "bearer", (isTokenUnit letter = true ∧ letter ≠ 105 ∧ letter ≠ 107) ∧
      letter ∉ unitsOf "_-." ∧ letter ≠ 32 := by decide +kernel

theorem consumeUnit_hold (h : redactor.redacting = none) : consumeUnit redactor unit = hold redactor [unit] := by
  rw [consumeUnit, consumeCharacter, h]
  rfl

/-! ## A credential after the word and a blank -/

theorem consume_nonSpace (h : redactor.redacting = some .nonSpace) (hText : ∀ unit ∈ text, isSpaceUnit unit = false) :
    consume redactor text = redactor := by
  rw [consume_eq]
  induction text with
  | nil => rfl
  | cons unit rest ih =>
    rw [List.forall_mem_cons] at hText
    have hUnit : consumeUnit redactor unit = redactor := by
      rw [consumeUnit, consumeCharacter, h]
      simp [Redacting.test, hText.1]
    rw [List.foldl_cons, hUnit]
    exact ih hText.2

theorem find_prefix_eq_none {normalized : List Nat} (hLast : normalized.getLast? = some unit) (hUnit : unit ∉ unitsOf "_-.") :
    STREAM_SECRET_PREFIXES.find? (fun word => word.isSuffixOf normalized) = none := by
  have hEnds : ∀ word ∈ STREAM_SECRET_PREFIXES, ∃ last ∈ unitsOf "_-.", word.getLast? = some last := by decide +kernel
  refine List.find?_eq_none.mpr fun word hWord hEnd => ?_
  obtain ⟨last, hMem, hWordLast⟩ := hEnds word hWord
  obtain ⟨before, hBefore⟩ := List.isSuffixOf_iff_suffix.mp hEnd
  rw [← hBefore, List.getLast?_append, hWordLast, Option.some_or] at hLast
  rw [Option.some.inj hLast] at hMem
  exact hUnit hMem

theorem word_tokens (h : toLowerCase word = unitsOf "bearer") : ∀ unit ∈ word, isTokenUnit unit = true := by
  have hLetters := fun letter hLetter => (bearer_eq.2.2.2 letter hLetter).1
  intro unit hUnit
  have hMem : ∀ letter ∈ lowerUnit unit, letter ∈ unitsOf "bearer" := fun letter hLetter => by
    rw [← h, toLowerCase]
    exact List.mem_flatMap.mpr ⟨unit, hUnit, hLetter⟩
  rw [lowerUnit] at hMem
  split at hMem
  · rename_i hUpper
    simp only [isTokenUnit, hUpper, decide_true, Bool.and_self, Bool.or_true, Bool.true_or]
  · split at hMem
    · exact absurd rfl (hLetters 107 (hMem 107 (by simp))).2.2
    · split at hMem
      · exact absurd rfl (hLetters 105 (hMem 105 (by simp))).2.1
      · exact (hLetters unit (hMem unit (by simp))).1

theorem lowerUnit_token (h : isTokenUnit unit = true) : ∃ letter, lowerUnit unit = [letter] := by
  have hLength := length_toLowerCase (List.forall_mem_singleton.mpr h)
  rw [toLowerCase, List.flatMap_singleton] at hLength
  exact List.length_eq_one_iff.mp hLength

theorem flushSafePrefix_redacting (redactor : Redactor) : (flushSafePrefix redactor).redacting = redactor.redacting := by
  rw [flushSafePrefix]
  split <;> rfl

theorem flushSafePrefix_pending (redactor : Redactor) : (flushSafePrefix redactor).pending <:+ redactor.pending := by
  unfold flushSafePrefix
  generalize suffixLength (toLowerCase redactor.pending) = length
  dsimp only
  split
  · exact List.drop_suffix _ _
  · exact List.suffix_refl _

def Redactor.extended (redactor : Redactor) (unit : Nat) : Redactor :=
  { redactor with pending := redactor.pending ++ [unit], redacting := none }

theorem hold_eq {last : Nat} (hLast : (toLowerCase (redactor.pending ++ [unit])).getLast? = some last)
    (hUnit : last ∉ unitsOf "_-.") :
    hold redactor [unit] = if bearer.isSuffixOf (toLowerCase (redactor.pending ++ [unit])) then
      mask (redactor.extended unit) bearer "Bearer ***" .nonSpace else flushSafePrefix (redactor.extended unit) := by
  rw [hold]
  rw [find_prefix_eq_none hLast hUnit]
  rfl

theorem bearer_not_suffix {normalized : List Nat} {last : Nat} (hLast : normalized.getLast? = some last) (hUnit : last ≠ 32) :
    ¬bearer <:+ normalized := by
  rintro ⟨before, rfl⟩
  rw [List.getLast?_append, bearer_eq.1, List.getLast?_concat, Option.some_or] at hLast
  exact hUnit (Option.some.inj hLast).symm

theorem visible_step (hNone : redactor.redacting = none) (hEnd : start <:+ redactor.pending)
    (hTokens : ∀ other ∈ start ++ [unit], isTokenUnit other = true) (hWord : toLowerCase (start ++ [unit]) <+: unitsOf "bearer") :
    (consumeUnit redactor unit).redacting = none ∧ start ++ [unit] <:+ (consumeUnit redactor unit).pending := by
  have hLetters := fun letter hLetter => (bearer_eq.2.2.2 letter hLetter).2
  have hBearer : unitsOf "bearer" <+: bearer := ⟨[32], bearer_eq.1.symm⟩
  have hShorter : (unitsOf "bearer").length < bearer.length := by simp [bearer_eq.1]
  obtain ⟨letter, hLetter⟩ := lowerUnit_token (hTokens unit (by simp))
  have hLower : ∀ before, toLowerCase (before ++ [unit]) = toLowerCase before ++ [letter] := fun before => by
    rw [toLowerCase_append, ← hLetter, toLowerCase, toLowerCase, List.flatMap_singleton]
  have hMem : letter ∈ unitsOf "bearer" := hWord.subset (by simp [hLower])
  have hLast : (toLowerCase (redactor.pending ++ [unit])).getLast? = some letter := by simp [hLower]
  have hSuffix : start ++ [unit] <:+ redactor.pending ++ [unit] := by
    obtain ⟨before, hBefore⟩ := hEnd
    exact ⟨before, by rw [← List.append_assoc, hBefore]⟩
  have hNot : ¬bearer.isSuffixOf (toLowerCase (redactor.pending ++ [unit])) = true :=
    fun h => bearer_not_suffix hLast (hLetters letter hMem).2 (List.isSuffixOf_iff_suffix.mp h)
  rw [consumeUnit_hold hNone, hold_eq hLast (hLetters letter hMem).1, if_neg hNot]
  constructor
  · rw [flushSafePrefix_redacting]
    rfl
  · have hLength := length_le_suffixLength (List.mem_append_right _ List.mem_cons_self) (hWord.trans hBearer)
      (by have hLe := hWord.length_le; omega) (suffix_toLowerCase hSuffix)
    rw [length_toLowerCase hTokens] at hLength
    exact flushSafePrefix_keeps hSuffix hLength

/-- By induction on what is left of the word. -/
theorem visible_word (hNone : redactor.redacting = none) (hEnd : start <:+ redactor.pending)
    (hTokens : ∀ other ∈ start ++ text, isTokenUnit other = true) (hWord : toLowerCase (start ++ text) = unitsOf "bearer") :
    (consume redactor text).redacting = none ∧ start ++ text <:+ (consume redactor text).pending := by
  rw [consume_eq]
  induction text generalizing start redactor with
  | nil => exact ⟨hNone, by rwa [List.append_nil]⟩
  | cons unit rest ih =>
    have hSplit : start ++ unit :: rest = start ++ [unit] ++ rest := by simp
    rw [hSplit] at hTokens hWord ⊢
    have hPrefix : toLowerCase (start ++ [unit]) <+: unitsOf "bearer" := by
      rw [← hWord, toLowerCase_append (start ++ [unit]) rest]
      exact List.prefix_append _ _
    obtain ⟨hNext, hPending⟩ := visible_step hNone hEnd (fun other hOther => hTokens other (List.mem_append_left _ hOther)) hPrefix
    exact ih hNext hPending hTokens hWord

theorem lower_blank (before : List Nat) : toLowerCase (before ++ [32]) = toLowerCase before ++ [32] := by
  rw [toLowerCase_append]
  rfl

theorem redacting_after_blank (hNone : redactor.redacting = none) (hEnd : word <:+ redactor.pending)
    (hWord : toLowerCase word = unitsOf "bearer") : (consumeUnit redactor 32).redacting = some .nonSpace := by
  have hBearer := bearer_eq.1
  have hSuffix : bearer <:+ toLowerCase (redactor.pending ++ [32]) := by
    obtain ⟨before, hBefore⟩ := suffix_toLowerCase hEnd
    rw [hWord] at hBefore
    exact ⟨before, by rw [lower_blank, ← hBefore, hBearer, List.append_assoc]⟩
  rw [consumeUnit_hold hNone, @hold_eq _ 32 32 (by simp [lower_blank]) bearer_eq.2.2.1,
    if_pos (List.isSuffixOf_iff_suffix.mpr hSuffix)]
  rfl

/-! ## The two texts -/

theorem redact_of_consume {m : BearerMatch} {credential : List Nat} {chunks : List (List Nat)} (h : chunks.flatten = m.text credential) :
    redact chunks = (flush (consume (consume (consume .start (m.before ++ m.word ++ m.separator)) credential) m.after)).written := by
  rw [redact_eq, h, BearerMatch.text, consume_append, consume_append]

theorem redacting_of_recognised {m : BearerMatch} (h : m.Recognised) :
    (consume .start (m.before ++ m.word ++ m.separator)).redacting = some .nonSpace := by
  obtain ⟨hBlank, hNone⟩ := h
  obtain ⟨hVisible, hEnd⟩ := visible_word hNone List.nil_suffix (word_tokens m.word_eq) m.word_eq
  rw [hBlank, consume_append, consume_append]
  exact redacting_after_blank hVisible hEnd m.word_eq

theorem hidden_of_recognised {m : BearerMatch} (h : m.Recognised) : m.Hidden := by
  intro credential chunks others _ hCredential hChunks hOthers
  have hRedacting := redacting_of_recognised h
  rw [redact_of_consume hChunks, redact_of_consume hOthers, consume_nonSpace hRedacting m.credential_nonspace,
    consume_nonSpace hRedacting hCredential]

/-! ## A credential that is not seen -/

def Cleared (redactor : Redactor) : Prop := redactor.redacting ≠ none → redactor.pending = []

theorem consumeUnit_cases (redactor : Redactor) (unit : Nat) :
    consumeUnit redactor unit = redactor ∧ redactor.redacting ≠ none ∨ consumeUnit redactor unit = hold redactor [unit] := by
  rw [consumeUnit, consumeCharacter]
  split
  · rename_i hTest
    refine .inl ⟨rfl, fun hNone => ?_⟩
    rw [hNone] at hTest
    cases hTest
  · exact .inr rfl

theorem hold_cleared (redactor : Redactor) (character : List Nat) : Cleared (hold redactor character) := by
  intro hRedacting
  rw [hold] at hRedacting ⊢
  split
  · rfl
  · rename_i hNone
    rw [hNone] at hRedacting
    dsimp only at hRedacting
    split
    · rfl
    · rename_i hNot
      rw [if_neg hNot, flushSafePrefix_redacting] at hRedacting
      exact absurd rfl hRedacting

theorem cleared_consume (h : Cleared redactor) (text : List Nat) : Cleared (consume redactor text) := by
  rw [consume_eq]
  induction text generalizing redactor with
  | nil => exact h
  | cons unit rest ih =>
    rw [List.foldl_cons]
    apply ih
    cases consumeUnit_cases redactor unit with
    | inl hSame =>
      rw [hSame.1]
      exact h
    | inr hHold =>
      rw [hHold]
      exact hold_cleared redactor [unit]

theorem pending_suffix (h : (consumeUnit redactor unit).redacting = none) :
    (consumeUnit redactor unit).pending <:+ redactor.pending ++ [unit] := by
  cases consumeUnit_cases redactor unit with
  | inl hSame =>
    rw [hSame.1] at h
    exact absurd h hSame.2
  | inr hHold =>
    rw [hHold, hold]
    split
    · exact List.nil_suffix
    · split
      · exact List.nil_suffix
      · exact flushSafePrefix_pending _

theorem space_spec (h : isSpaceUnit unit = true) : lowerUnit unit = [unit] ∧ unit ∉ unitsOf "_-." ∧ unit ∉ unitsOf "bearer" := by
  have hAll : ∀ space ∈ whitespace.map Char.toNat, lowerUnit space = [space] ∧ space ∉ unitsOf "_-." ∧ space ∉ unitsOf "bearer" := by
    decide +kernel
  rw [isSpaceUnit, List.contains_iff_mem] at h
  exact hAll unit h

theorem lower_space (h : isSpaceUnit unit = true) (before : List Nat) :
    toLowerCase (before ++ [unit]) = toLowerCase before ++ [unit] := by
  rw [toLowerCase_append, toLowerCase, toLowerCase, List.flatMap_singleton, (space_spec h).1]

theorem space_ends (h : isSpaceUnit unit = true) (redacting : Redacting) : redacting.test [unit] = false := by
  cases redacting with
  | token =>
    have hNot : isTokenUnit unit = false := by
      rw [Bool.eq_false_iff]
      intro hToken
      rw [token_not_space hToken] at h
      cases h
    simp [Redacting.test, hNot]
  | nonSpace => simp [Redacting.test, h]

theorem consumeUnit_space (h : isSpaceUnit unit = true) : consumeUnit redactor unit = hold redactor [unit] := by
  rw [consumeUnit, consumeCharacter]
  cases redactor.redacting with
  | none => rfl
  | some redacting => simp [space_ends h]

theorem redacting_after_space (hCleared : Cleared redactor) (hSpace : isSpaceUnit unit = true)
    (h : (consumeUnit redactor unit).redacting ≠ none) :
    unit = 32 ∧ redactor.redacting = none ∧ unitsOf "bearer" <:+ toLowerCase redactor.pending := by
  have hBearer := bearer_eq.1
  have hLower := lower_space hSpace redactor.pending
  have hSuffix : bearer <:+ toLowerCase redactor.pending ++ [unit] := by
    by_contra hNot
    rw [consumeUnit_space hSpace, hold_eq (by rw [hLower, List.getLast?_concat]) (space_spec hSpace).2.1, hLower,
      if_neg fun hEnd => hNot (List.isSuffixOf_iff_suffix.mp hEnd), flushSafePrefix_redacting] at h
    exact absurd rfl h
  obtain ⟨before, hBefore⟩ := hSuffix
  rw [hBearer, ← List.append_assoc] at hBefore
  obtain ⟨hWord, hUnit⟩ := List.append_inj' hBefore rfl
  refine ⟨(List.cons.inj hUnit).1.symm, ?_, before, hWord⟩
  by_contra hRedacting
  rw [hCleared hRedacting] at hWord
  exact absurd (List.append_eq_nil_iff.mp hWord).2 bearer_eq.2.1

theorem recognised_of_redacting {m : BearerMatch}
    (h : (consume .start (m.before ++ m.word ++ m.separator)).redacting ≠ none) : m.Recognised := by
  have hCleared : ∀ text, Cleared (consume .start text) := cleared_consume fun hStart => absurd rfl hStart
  have hSnoc : ∀ (text : List Nat) (unit : Nat), consume .start (text ++ [unit]) = consumeUnit (consume .start text) unit := by
    intro text unit
    rw [consume_append, consume_eq _ [unit]]
    rfl
  have hSpaces := m.separator_space
  cases List.eq_nil_or_concat m.separator with
  | inl hNil => exact absurd hNil m.separator_ne
  | inr hConcat =>
    obtain ⟨first, last, hSeparator⟩ := hConcat
    rw [List.concat_eq_append] at hSeparator
    rw [hSeparator] at h hSpaces
    rw [← List.append_assoc, hSnoc] at h
    obtain ⟨hBlank, hNone, hWord⟩ := redacting_after_space (hCleared _) (hSpaces last (by simp)) h
    have hFirst : first = [] := by
      cases List.eq_nil_or_concat first with
      | inl hNil => exact hNil
      | inr hConcat =>
        obtain ⟨others, space, hOthers⟩ := hConcat
        rw [List.concat_eq_append] at hOthers
        have hSpace : isSpaceUnit space = true := hSpaces space (by simp [hOthers])
        rw [hOthers, ← List.append_assoc, hSnoc] at hNone hWord
        have hEnd := hWord.trans (suffix_toLowerCase (pending_suffix hNone))
        rw [lower_space hSpace] at hEnd
        have hMem : space ∈ unitsOf "bearer" := by
          have hLast := hEnd.getLast bearer_eq.2.1
          rw [List.getLast_append_singleton] at hLast
          rw [← hLast]
          exact List.getLast_mem _
        exact absurd hMem (space_spec hSpace).2.2
    rw [hFirst, List.append_nil, consume_append] at hNone
    refine ⟨by rw [hSeparator, hFirst, hBlank]; rfl, ?_⟩
    by_contra hRedacting
    rw [consume_redacting hRedacting (word_tokens m.word_eq)] at hNone
    exact hRedacting hNone

theorem flushSafePrefix_written (redactor : Redactor) : redactor.written <+: (flushSafePrefix redactor).written := by
  unfold flushSafePrefix
  generalize suffixLength (toLowerCase redactor.pending) = length
  dsimp only
  split
  · exact List.prefix_append _ _
  · exact List.prefix_refl _

theorem hold_written (redactor : Redactor) (unit : Nat) : redactor.written <+: (hold redactor [unit]).written := by
  rw [hold]
  split
  · rw [mask, List.append_assoc]
    exact List.prefix_append _ _
  · split
    · rw [mask, List.append_assoc]
      exact List.prefix_append _ _
    · exact flushSafePrefix_written (redactor.extended unit)

theorem consume_written (redactor : Redactor) (text : List Nat) : redactor.written <+: (consume redactor text).written := by
  rw [consume_eq]
  induction text generalizing redactor with
  | nil => exact List.prefix_refl _
  | cons unit rest ih =>
    rw [List.foldl_cons]
    refine List.IsPrefix.trans ?_ (ih _)
    cases consumeUnit_cases redactor unit with
    | inl hSame => simp only [hSame.1, List.prefix_refl]
    | inr hHold =>
      rw [hHold]
      exact hold_written redactor unit

theorem flush_written (redactor : Redactor) : redactor.written <+: (flush redactor).written := by
  rw [flush]
  dsimp only
  split
  · exact List.prefix_append _ _
  · exact List.prefix_refl _

theorem consume_foreign (hNone : redactor.redacting = none) (hUnit : 0xd800 ≤ unit) (n : Nat) :
    (consume redactor (List.replicate (n + 1) unit)).written = redactor.written ++ (redactor.pending ++ List.replicate (n + 1) unit) := by
  have hStep : ∀ r : Redactor, r.redacting = none → consumeUnit r unit = ⟨r.written ++ (r.pending ++ [unit]), [], none⟩ :=
    fun r hr => (consumeUnit_hold hr).trans (hold_surrogates r (List.cons_ne_nil unit []) (List.forall_mem_singleton.mpr hUnit))
  rw [consume_eq]
  induction n generalizing redactor with
  | zero =>
    rw [List.replicate_one, List.foldl_cons, hStep redactor hNone]
    rfl
  | succ n ih =>
    rw [List.replicate_succ, List.foldl_cons, hStep redactor hNone, ih rfl]
    simp

theorem foreign_units : 0xd800 ≤ 0xfffd ∧ 0xd800 ≤ 0xfffc ∧ isSpaceUnit 0xfffd = false ∧ isSpaceUnit 0xfffc = false := by
  decide +kernel

theorem redact_flatten {chunks : List (List Nat)} (h : chunks.flatten = text) : redact chunks = redact [text] := by
  rw [redact_eq, redact_eq, h, List.flatten_singleton]

theorem prefix_redact {m : BearerMatch} (h : (consume .start (m.before ++ m.word ++ m.separator)).redacting = none)
    (hUnit : 0xd800 ≤ unit) (n : Nat) :
    (consume .start (m.before ++ m.word ++ m.separator)).written ++
      ((consume .start (m.before ++ m.word ++ m.separator)).pending ++ List.replicate (n + 1) unit) <+:
      redact [m.text (List.replicate (n + 1) unit)] := by
  rw [redact_of_consume (List.flatten_singleton ..), ← consume_foreign h hUnit n]
  exact (consume_written _ _).trans (flush_written _)

theorem differs_of_not_redacting {m : BearerMatch} (h : (consume .start (m.before ++ m.word ++ m.separator)).redacting = none) :
    ∃ credential, credential.length = m.credential.length ∧ (∀ unit ∈ credential, isSpaceUnit unit = false) ∧
      redact [m.text m.credential] ≠ redact [m.text credential] := by
  obtain ⟨n, hLength⟩ := Nat.exists_eq_succ_of_ne_zero (fun hZero => m.credential_ne (List.length_eq_zero_iff.mp hZero))
  obtain ⟨hFirst, hSecond, hFirstSpace, hSecondSpace⟩ := foreign_units
  have hOther : redact [m.text (List.replicate (n + 1) 0xfffd)] ≠ redact [m.text (List.replicate (n + 1) 0xfffc)] := by
    intro hSame
    have hLeft := prefix_redact h hFirst n
    have hRight := prefix_redact h hSecond n
    rw [hSame] at hLeft
    have hEq := (List.prefix_of_prefix_length_le hLeft hRight (by simp)).eq_of_length (by simp)
    have hUnits := List.append_cancel_left (List.append_cancel_left hEq)
    rw [List.replicate_succ, List.replicate_succ] at hUnits
    exact absurd (List.cons.inj hUnits).1 (by decide)
  by_cases hSame : redact [m.text m.credential] = redact [m.text (List.replicate (n + 1) 0xfffd)]
  · refine ⟨List.replicate (n + 1) 0xfffc, by rw [List.length_replicate, hLength], fun unit hMem => ?_, hSame ▸ hOther⟩
    rw [List.eq_of_mem_replicate hMem]
    exact hSecondSpace
  · refine ⟨List.replicate (n + 1) 0xfffd, by rw [List.length_replicate, hLength], fun unit hMem => ?_, hSame⟩
    rw [List.eq_of_mem_replicate hMem]
    exact hFirstSpace

/-- **Bearer credentials in a stream.** The output is the same for every credential and every splitting exactly if one blank
follows a word that the redactor sees; otherwise a credential of the same length gives another output. -/
theorem credential_hidden_iff (m : BearerMatch) : (m.Hidden ↔ m.Recognised) ∧
    (¬m.Recognised → ∃ credential, credential.length = m.credential.length ∧ (∀ unit ∈ credential, isSpaceUnit unit = false) ∧
      ∀ chunks others, chunks.flatten = m.text m.credential → others.flatten = m.text credential → redact chunks ≠ redact others) := by
  have hDiffers : ¬m.Recognised → ∃ credential, credential.length = m.credential.length ∧
      (∀ unit ∈ credential, isSpaceUnit unit = false) ∧ redact [m.text m.credential] ≠ redact [m.text credential] :=
    fun hNot => differs_of_not_redacting (Classical.byContradiction fun h => hNot (recognised_of_redacting h))
  constructor
  · constructor
    · intro hHidden
      by_contra hNot
      obtain ⟨credential, hLength, hSpaces, hOther⟩ := hDiffers hNot
      have hNe : credential ≠ [] := by
        rintro rfl
        exact m.credential_ne (List.length_eq_zero_iff.mp hLength.symm)
      exact hOther (hHidden credential _ _ hNe hSpaces (List.flatten_singleton ..) (List.flatten_singleton ..))
    · exact hidden_of_recognised
  · intro hNot
    obtain ⟨credential, hLength, hSpaces, hOther⟩ := hDiffers hNot
    refine ⟨credential, hLength, hSpaces, fun chunks others hChunks hOthers => ?_⟩
    rw [redact_flatten hChunks, redact_flatten hOthers]
    exact hOther

def tabbed : BearerMatch where
  before := []
  word := unitsOf "Bearer"
  separator := unitsOf "\t"
  credential := unitsOf "abc"
  after := []
  word_eq := by decide +kernel
  separator_ne := by decide +kernel
  separator_space := by decide +kernel
  credential_ne := by decide +kernel
  credential_nonspace := by decide +kernel
  after_space := by decide +kernel

theorem tabbed_credential_written : redact [tabbed.text tabbed.credential] = unitsOf "Bearer\tabc" ∧
    redact [tabbed.text (unitsOf "xyz")] = unitsOf "Bearer\txyz" ∧ ¬tabbed.Hidden := by
  have hFirst : redact [tabbed.text tabbed.credential] = unitsOf "Bearer\tabc" := by decide +kernel
  have hSecond : redact [tabbed.text (unitsOf "xyz")] = unitsOf "Bearer\txyz" := by decide +kernel
  refine ⟨hFirst, hSecond, fun hHidden => ?_⟩
  have hSame := hHidden (unitsOf "xyz") [tabbed.text tabbed.credential] [tabbed.text (unitsOf "xyz")] (by decide +kernel)
    (by decide +kernel) (List.flatten_singleton ..) (List.flatten_singleton ..)
  rw [hFirst, hSecond] at hSame
  exact absurd hSame (by decide +kernel)

end GhostApi.Egress
