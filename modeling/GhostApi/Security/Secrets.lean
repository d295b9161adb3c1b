import GhostApi.Js.Regex
import GhostApi.Js.Text

/-!
# Masking of secret-shaped text

The bearer pattern is replaced first, then every token pattern in the order
of TOKEN_PATTERNS. Validators reject a text that this masking would change.
-/

namespace GhostApi.Security

open Js Js.Pattern

def MASK : List Char := "***".toList

def bearerMask : List Char := "Bearer ***".toList

def wordOrDash (c : Char) : Bool := isAlnum c || c == '_' || c == '-'

def wordChar (c : Char) : Bool := isAlnum c || c == '_'

def alnumOrDash (c : Char) : Bool := isAlnum c || c == '-'

def wordDashDot (c : Char) : Bool := wordOrDash c || c == '.'

def upperOrDigit (c : Char) : Bool := isUpper c || isDigit c

def anyCase (s : String) : Pattern :=
  s.toList.foldr (fun c rest => seq (cls fun d => d.toLower == c.toLower) rest) empty

def prefixed (text : String) (rest : Pattern) : Pattern := seq (literal text.toList) rest

def bearerPattern : Pattern :=
  seq (anyCase "Bearer") (seq (many1 isSpace) (many1 fun c => !isSpace c))

def keyKind : Pattern :=
  opt (alt (literal "RSA ".toList) (alt (literal "EC ".toList) (literal "OPENSSH ".toList)))

def privateKeyPattern : Pattern :=
  seq (literal "-----BEGIN ".toList) (seq keyKind (seq (literal "PRIVATE KEY-----".toList)
    (seq (rep (fun _ => true) 0 none false) (seq (literal "-----END ".toList)
      (seq keyKind (literal "PRIVATE KEY-----".toList))))))

def jwtPattern : Pattern :=
  seq (prefixed "eyJ" (atLeast wordOrDash 8)) (seq (char '.') (seq (atLeast wordOrDash 8)
    (seq (char '.') (atLeast wordOrDash 8))))

def databaseUrlPattern : Pattern :=
  seq (alt (seq (anyCase "postgres") (opt (anyCase "ql"))) (alt (anyCase "mysql")
      (seq (anyCase "mongodb") (opt (anyCase "+srv")))))
    (seq (literal "://".toList) (seq (many1 fun c => !(isSpace c || c == ':' || c == '@' || c == '/'))
      (seq (char ':') (seq (many1 fun c => !(isSpace c || c == '@' || c == '/'))
        (seq (char '@') (many1 fun c => !isSpace c))))))

def TOKEN_PATTERNS : List Pattern :=
  [prefixed "sk_live_" (many1 wordOrDash),
   prefixed "sk_test_" (many1 wordOrDash),
   prefixed "rk_live_" (many1 wordOrDash),
   prefixed "ghp_" (many1 wordChar),
   prefixed "github_pat_" (many1 wordChar),
   prefixed "xoxb-" (many1 alnumOrDash),
   prefixed "SG." (many1 wordDashDot),
   seq (alt (literal "AKIA".toList) (literal "ASIA".toList)) (exactly upperOrDigit 16),
   prefixed "AIza" (atLeast wordOrDash 20),
   prefixed "ya29." (many1 wordOrDash),
   jwtPattern,
   privateKeyPattern,
   databaseUrlPattern,
   alt (prefixed "npm_" (atLeast isAlnum 20)) (prefixed "pypi-" (atLeast wordOrDash 20))]

def sanitizeChars (cs : List Char) : List Char :=
  TOKEN_PATTERNS.foldl (fun result pattern => pattern.replaceAll MASK result)
    (bearerPattern.replaceAll bearerMask cs)

def sanitizeSecretString (value : String) : String := String.ofList (sanitizeChars value.toList)

/-! ## Masking leaves the surroundings of a text alone -/

theorem apart_of_whitespace {p : Pattern} (starts : (whitespace.all fun c => p.dead [c]) = true)
    (stops : StopsBefore isSpace p) : Apart isSpace p where
  starts c hc := List.all_eq_true.mp starts c (List.contains_iff_mem.mp hc)
  stops := stops

theorem rejects_space {accepts : Char → Bool} (h : (whitespace.all fun c => !accepts c) = true) (c : Char)
    (hc : isSpace c = true) : accepts c = false := by
  simpa using List.all_eq_true.mp h c (List.contains_iff_mem.mp hc)

theorem atLeast_stops {accepts : Char → Bool} (h : (whitespace.all fun c => !accepts c) = true) {n : Nat} :
    StopsBefore isSpace (atLeast accepts (n + 1)) :=
  StopsBefore.rep (rejects_space h)

theorem prefixed_apart {text : String} {accepts : Char → Bool} {n : Nat}
    (starts : (whitespace.all fun c => (prefixed text (atLeast accepts (n + 1))).dead [c]) = true)
    (h : (whitespace.all fun c => !accepts c) = true) :
    Apart isSpace (prefixed text (atLeast accepts (n + 1))) :=
  apart_of_whitespace starts (.seq _ (atLeast_stops h))

theorem bearerPattern_apart : Apart isSpace bearerPattern :=
  apart_of_whitespace (by decide) (.seq _ (.seq _ (atLeast_stops (by decide))))

theorem awsKey_apart :
    Apart isSpace (seq (alt (literal "AKIA".toList) (literal "ASIA".toList)) (exactly upperOrDigit 16)) :=
  apart_of_whitespace (by decide)
    (.seq _ (.rep (rejects_space (by decide))))

theorem jwtPattern_apart : Apart isSpace jwtPattern :=
  apart_of_whitespace (by decide) (.seq _ (.seq _ (.seq _ (.seq _ (atLeast_stops (by decide))))))

theorem privateKeyPattern_apart : Apart isSpace privateKeyPattern :=
  apart_of_whitespace (by decide)
    (.seq _ (.seq _ (.seq _ (.seq _ (.seq _ (.seq _ (.literal 'P' "RIVATE KEY-----".toList (by decide))))))))

theorem databaseUrlPattern_apart : Apart isSpace databaseUrlPattern :=
  apart_of_whitespace (by decide)
    (.seq _ (.seq _ (.seq _ (.seq _ (.seq _ (.seq _ (atLeast_stops (by decide))))))))

theorem packageToken_apart :
    Apart isSpace (alt (prefixed "npm_" (atLeast isAlnum 20)) (prefixed "pypi-" (atLeast wordOrDash 20))) :=
  apart_of_whitespace (by decide)
    (.alt (.seq _ (atLeast_stops (by decide))) (.seq _ (atLeast_stops (by decide))))

theorem tokenPattern_apart : ∀ p ∈ TOKEN_PATTERNS, Apart isSpace p := by
  simp only [TOKEN_PATTERNS, List.forall_mem_cons]
  refine ⟨?_, ?_, ?_, ?_, ?_, ?_, ?_, awsKey_apart, ?_, ?_, jwtPattern_apart, privateKeyPattern_apart,
    databaseUrlPattern_apart, packageToken_apart, by simp⟩
  all_goals exact prefixed_apart (by decide) (by decide)

theorem foldl_replaceAll_context {ps : List Pattern} (h : ∀ p ∈ ps, Apart isSpace p) (mask : List Char)
    {before after : List Char} (hBefore : ∀ c ∈ before, isSpace c = true)
    (hAfter : ∀ c ∈ after, isSpace c = true) (cs : List Char) :
    ps.foldl (fun result pattern => pattern.replaceAll mask result) (before ++ cs ++ after) =
      before ++ ps.foldl (fun result pattern => pattern.replaceAll mask result) cs ++ after := by
  induction ps generalizing cs with
  | nil => rfl
  | cons p ps ih =>
    rw [List.forall_mem_cons] at h
    rw [List.foldl_cons, List.foldl_cons, h.1.replaceAll_append_outside mask hAfter,
      h.1.replaceAll_outside_append mask hBefore, ih h.2]

theorem sanitizeChars_context {before after : List Char} (hBefore : ∀ c ∈ before, isSpace c = true)
    (hAfter : ∀ c ∈ after, isSpace c = true) (cs : List Char) :
    sanitizeChars (before ++ cs ++ after) = before ++ sanitizeChars cs ++ after := by
  rw [sanitizeChars, bearerPattern_apart.replaceAll_append_outside bearerMask hAfter,
    bearerPattern_apart.replaceAll_outside_append bearerMask hBefore,
    foldl_replaceAll_context tokenPattern_apart MASK hBefore hAfter, sanitizeChars]

theorem sanitizeSecretString_trim {value : String} (h : sanitizeSecretString value = value) :
    sanitizeSecretString (trim value) = trim value := by
  obtain ⟨before, after, hValue, hBefore, hAfter⟩ := trimList_context value.toList
  have hChars : sanitizeChars value.toList = value.toList := by
    have := congrArg String.toList h
    rwa [sanitizeSecretString, String.toList_ofList] at this
  rw [hValue, sanitizeChars_context hBefore hAfter] at hChars
  have hCore := List.append_cancel_left (List.append_cancel_right hChars)
  rw [sanitizeSecretString, trim, String.toList_ofList, hCore]

def nameChars : List Char := "-.0123456789:abcdefghijklmnopqrstuvwz".toList

theorem patterns_leave_nameChars :
    (bearerPattern.leaves nameChars && TOKEN_PATTERNS.all (·.leaves nameChars)) = true := by decide +kernel

theorem foldl_replaceAll_of_leaves {ps : List Pattern} {allowed cs : List Char} (mask : List Char)
    (hps : ∀ p ∈ ps, p.leaves allowed = true) (h : ∀ c ∈ cs, c ∈ allowed) :
    ps.foldl (fun result pattern => pattern.replaceAll mask result) cs = cs := by
  induction ps with
  | nil => rfl
  | cons p ps ih =>
    rw [List.forall_mem_cons] at hps
    rw [List.foldl_cons, replaceAll_of_leaves mask hps.1 h, ih hps.2]

theorem sanitizeSecretString_name {value : String} (h : ∀ c ∈ value.toList, c ∈ nameChars) :
    sanitizeSecretString value = value := by
  obtain ⟨hBearer, hTokens⟩ := (Bool.and_eq_true _ _).mp patterns_leave_nameChars
  rw [sanitizeSecretString, sanitizeChars, replaceAll_of_leaves bearerMask hBearer h,
    foldl_replaceAll_of_leaves MASK (List.all_eq_true.mp hTokens) h, String.ofList_toList]

/-- Characters of plain words. Of the secrets only a bearer token is made of them. -/
def wordChars : List Char := " ;abcdefghijklmnopqrstuvwxyz".toList

def isCalm (cs : List Char) : Bool := cs.all wordChars.contains && bearerPattern.deadAlong cs

theorem isCalm_append {before cs : List Char} (hBefore : isCalm before = true) (h : isCalm cs = true) :
    isCalm (before ++ cs) = true := by
  rw [isCalm, Bool.and_eq_true] at hBefore h ⊢
  rw [List.all_append, Bool.and_eq_true]
  exact ⟨⟨hBefore.1, h.1⟩, Pattern.deadAlong_append hBefore.2 h.2⟩

theorem sanitizeSecretString_calm {value : String} (h : isCalm value.toList = true) :
    sanitizeSecretString value = value := by
  rw [isCalm, Bool.and_eq_true, List.all_eq_true] at h
  have hWords : ∀ c ∈ value.toList, c ∈ wordChars := fun c hc => List.contains_iff_mem.mp (h.1 c hc)
  have hTokens : (TOKEN_PATTERNS.all (·.leaves wordChars)) = true := by decide +kernel
  have hBearer : bearerPattern.replaceAll bearerMask (value.toList ++ []) =
      value.toList ++ bearerPattern.replaceAll bearerMask [] := replaceAll_dead_append h.2 []
  have hNil : bearerPattern.replaceAll bearerMask [] = [] := rfl
  rw [hNil, List.append_nil] at hBearer
  rw [sanitizeSecretString, sanitizeChars, hBearer,
    foldl_replaceAll_of_leaves MASK (List.all_eq_true.mp hTokens) hWords, String.ofList_toList]

attribute [irreducible] sanitizeSecretString

end GhostApi.Security
