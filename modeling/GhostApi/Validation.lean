import GhostApi.Js.Date
import GhostApi.Js.Number
import GhostApi.Js.Sha256
import GhostApi.Js.Value
import GhostApi.Lib.Mutation
import GhostApi.Security.Secrets

/-!
# Validators of untyped input

The stores of the program share one family of validators that differ in the
error class only. An accepted identifier, hash or text is a value of a
subtype, so the records built from it need no second check: applying the
validator to such a value again returns it.
-/

namespace GhostApi.Validation

open Js Security Effect

def isIdentifierStart (c : Char) : Bool := isLower c || isDigit c

def isIdentifierChar (c : Char) : Bool := isIdentifierStart c || c == '.' || c == '_' || c == '-'

/-- IDENTIFIER = /^[a-z0-9][a-z0-9._-]{0,127}$/ -/
def matchesIdentifier (s : String) : Bool := match s.toList with
  | [] => false
  | c :: cs => isIdentifierStart c && cs.all isIdentifierChar && cs.length ≤ 127

def isIdentifier (s : String) : Bool := matchesIdentifier s && sanitizeSecretString s == s

/-- HASH = /^[a-f0-9]{64}$/ -/
def isHash (s : String) : Bool := s.toList.length == 64 && s.toList.all Sha256.isHexChar

def acceptsText (max : Nat) (s : String) : Bool :=
  trim s != "" && Js.length s ≤ max && !s.toList.any isControl && sanitizeSecretString s == s

abbrev Identifier := { s : String // isIdentifier s = true }

abbrev Hash := { s : String // isHash s = true }

abbrev Timestamp := { s : String // Date.isTimestamp s = true }

abbrev Text (max : Nat) := { s : String // acceptsText max s = true ∧ trim s = s }

abbrev Positive (max : Nat) := { n : Nat // 1 ≤ n ∧ n ≤ max }

abbrev Bounded (max : Nat) := { n : Nat // n ≤ max }

section Validators

variable (fail : String → JsError)

/-- A check of the source that throws. -/
def failIf (c : Prop) [Decidable c] (e : JsError) : Except JsError Unit := if c then .error e else .ok ()

def object (value : JsValue) (message : String) : Except JsError Fields := match value with
  | .object fields => .ok fields
  | _ => .error (fail message)

def array (value : JsValue) (label : String) (max : Nat) : Except JsError (List JsValue) := match value with
  | .array items => if max < items.length then .error (fail (label ++ " is invalid.")) else .ok items
  | _ => .error (fail (label ++ " is invalid."))

def exactKeys (fields : Fields) (keys : List String) (label : String) (optional : List String) :
    Except JsError Unit :=
  match fields.find? fun (key, value) =>
      !keys.contains key || (value.isUndefined && !optional.contains key) with
  | some (key, _) => .error (fail (label ++ " contains unsupported field: " ++ key))
  | none => .ok ()

def positive (value : JsValue) (label : String) (max : Nat) : Except JsError (Positive max) := match value with
  | .number (.integer z) => if h : 1 ≤ z.toNat ∧ z.toNat ≤ max then .ok ⟨z.toNat, h⟩
    else .error (fail (label ++ " is invalid."))
  | _ => .error (fail (label ++ " is invalid."))

def nonNegative (value : JsValue) (label : String) (max : Nat) : Except JsError (Bounded max) := match value with
  | .number (.integer z) => if h : 0 ≤ z ∧ z.toNat ≤ max then .ok ⟨z.toNat, h.2⟩
    else .error (fail (label ++ " is invalid."))
  | _ => .error (fail (label ++ " is invalid."))

def MAX_MS : Nat := 30 * 24 * 60 * 60 * 1000

def boundedMs (value : JsValue) (label : String) : Except JsError (Positive MAX_MS) :=
  positive fail value label MAX_MS

def bps (value : JsValue) (label : String) : Except JsError (Bounded 10000) :=
  nonNegative fail value label 10000

def boolean (value : JsValue) (message : String) : Except JsError Bool := match value with
  | .bool b => .ok b
  | _ => .error (fail message)

def enumerated {α : Type} (all : List α) (text : α → String) (value : JsValue) (message : String) :
    Except JsError α := match value with
  | .string s => match all.find? (text · == s) with
    | some a => .ok a
    | none => .error (fail message)
  | _ => .error (fail message)

def identifierOr (error : JsError) (value : JsValue) : Except JsError Identifier := match value with
  | .string s => if h : isIdentifier s = true then .ok ⟨s, h⟩ else .error error
  | _ => .error error

def identifier (value : JsValue) (label : String) : Except JsError Identifier :=
  identifierOr (fail (label ++ " must be a safe identifier.")) value

def hashOr (error : JsError) (value : JsValue) : Except JsError Hash := match value with
  | .string s => if h : isHash s = true then .ok ⟨s, h⟩ else .error error
  | _ => .error error

def hash (value : JsValue) (label : String) : Except JsError Hash :=
  hashOr (fail (label ++ " must be a SHA-256 hash.")) value

def timestamp (value : JsValue) (label : String) : Except JsError Timestamp := match value with
  | .string s => if h : Date.isTimestamp s = true then .ok ⟨s, h⟩
    else .error (fail (label ++ " must be an ISO UTC timestamp."))
  | _ => .error (fail (label ++ " must be an ISO UTC timestamp."))

def timeOf (timestamp : Timestamp) : Int := (Date.parse timestamp.val).getD 0

def checkTimestamp (s label : String) : Except JsError Unit :=
  if Date.isTimestamp s then .ok () else .error (fail (label ++ " must be an ISO UTC timestamp."))

def checkIdentifier (s label : String) : Except JsError Unit :=
  if isIdentifier s then .ok () else .error (fail (label ++ " must be a safe identifier."))

/-- The check of a clock time that is stored in its printed form. -/
def stamp (ms : Int) (label : String) : Except JsError Unit := checkTimestamp fail (Date.toISOString ms) label

def atMost {α : Type} (items : List α) (label : String) (max : Nat) : Except JsError Unit :=
  if items.length ≤ max then .ok () else .error (fail (label ++ " is invalid."))

def unique (values : List String) (label : String) : Except JsError Unit :=
  if values.Nodup then .ok () else .error (fail (label ++ " must be unique."))

end Validators

/-! ## Trimmed texts -/

theorem acceptsText_iff {max : Nat} {s : String} : acceptsText max s = true ↔
    trim s ≠ "" ∧ Js.length s ≤ max ∧ (∀ c ∈ s.toList, isControl c = false) ∧ sanitizeSecretString s = s := by
  simp [acceptsText, and_assoc]

theorem acceptsText_trim {max : Nat} {s : String} (h : acceptsText max s = true) :
    acceptsText max (trim s) = true ∧ trim (trim s) = trim s := by
  obtain ⟨hNonempty, hLength, hControl, hSecret⟩ := acceptsText_iff.mp h
  refine ⟨acceptsText_iff.mpr ⟨?_, ?_, ?_, sanitizeSecretString_trim hSecret⟩, trim_idempotent s⟩
  · rwa [trim_idempotent]
  · rw [Js.length, trim, String.toList_ofList]
    exact (lengthOf_trimList_le s.toList).trans hLength
  · intro c hc
    rw [trim, String.toList_ofList] at hc
    exact hControl c (mem_of_mem_trimList hc)

def text (fail : String → JsError) (value : JsValue) (label : String) (max : Nat) :
    Except JsError (Text max) := match value with
  | .string s => if h : acceptsText max s = true then .ok ⟨trim s, acceptsText_trim h⟩
    else .error (fail (label ++ " is invalid."))
  | _ => .error (fail (label ++ " is invalid."))

/-! ## Validators return what they accepted before -/

variable {fail : String → JsError}

theorem identifier_val (id : Identifier) (label : String) : identifier fail (.string id.val) label = .ok id :=
  dif_pos id.property

theorem hash_val (h : Hash) (label : String) : hash fail (.string h.val) label = .ok h :=
  dif_pos h.property

theorem isHash_sha256 (value : String) : isHash (sha256 value) = true := by
  rw [isHash, Bool.and_eq_true, List.all_eq_true, beq_iff_eq]
  exact ⟨sha256_length value, sha256_isHexChar value⟩

def hashOf (value : String) : Hash := ⟨sha256 value, isHash_sha256 value⟩

theorem timestamp_val (t : Timestamp) (label : String) : timestamp fail (.string t.val) label = .ok t :=
  dif_pos t.property

theorem timestamp_ok {s label : String} {t : Timestamp} (h : timestamp fail (.string s) label = .ok t) : t.val = s := by
  rw [timestamp] at h
  split at h
  · cases h
    rfl
  · cases h

theorem identifierOr_ok {e : JsError} {s : String} {id : Identifier} (h : identifierOr e (.string s) = .ok id) :
    id.val = s := by
  rw [identifierOr] at h
  split at h
  · cases h
    rfl
  · cases h

theorem text_of_accepts {max : Nat} {s : String} (label : String) (h : acceptsText max s = true)
    (hTrim : trim s = s) : text fail (.string s) label max = .ok ⟨s, h, hTrim⟩ := by
  rw [text, dif_pos h]
  exact congrArg Except.ok (Subtype.ext hTrim)

theorem text_val {max : Nat} (t : Text max) (label : String) : text fail (.string t.val) label max = .ok t :=
  text_of_accepts label t.property.1 t.property.2

theorem text_ok {max : Nat} {s label : String} {t : Text max} (h : text fail (.string s) label max = .ok t) :
    acceptsText max s = true ∧ t.val = trim s := by
  rw [text] at h
  split at h
  · cases h
    exact ⟨‹_›, rfl⟩
  · cases h

/-! ## Accepted stored values -/

/-- A clock time whose printed form is a valid timestamp. -/
def Printable (ms : Int) : Prop := Date.isTimestamp (Date.toISOString ms) = true

theorem timeOf_eq {timestamp : Timestamp} {ms : Int} (h : timestamp.val = Date.toISOString ms) : timeOf timestamp = ms := by
  have hPrinted : Date.isTimestamp (Date.toISOString ms) = true := h ▸ timestamp.property
  rw [timeOf, h, Date.parse_toISOString hPrinted]
  rfl

theorem bind_unit_eq_ok {β : Type} {x : Except JsError Unit} {y : Except JsError β} {b : β} :
    (x >>= fun _ => y) = .ok b ↔ x = .ok () ∧ y = .ok b := by
  constructor
  · intro h
    obtain ⟨_, hx, hy⟩ := bind_eq_ok h
    exact ⟨hx, hy⟩
  · rintro ⟨rfl, hy⟩
    exact hy

theorem ite_ok_iff {c : Prop} [Decidable c] {e : JsError} :
    (if c then .ok () else .error e : Except JsError Unit) = .ok () ↔ c := by
  split <;> simp_all

theorem failIf_eq_ok {c : Prop} {_ : Decidable c} {e : JsError} {u : Unit} : failIf c e = .ok u ↔ ¬c := by
  rw [failIf]
  split <;> simp_all

theorem failIf_of_not {c : Prop} {_ : Decidable c} (h : ¬c) (e : JsError) : failIf c e = .ok () := if_neg h

theorem checkTimestamp_eq_ok {s label : String} :
    checkTimestamp fail s label = .ok () ↔ Date.isTimestamp s = true := ite_ok_iff

theorem stamp_eq_ok {ms : Int} {label : String} : stamp fail ms label = .ok () ↔ Printable ms := by
  rw [stamp, checkTimestamp_eq_ok, Printable]

theorem checkIdentifier_eq_ok {s label : String} :
    checkIdentifier fail s label = .ok () ↔ isIdentifier s = true := ite_ok_iff

theorem atMost_eq_ok {α : Type} {items : List α} {label : String} {max : Nat} :
    atMost fail items label max = .ok () ↔ items.length ≤ max := ite_ok_iff

theorem unique_eq_ok {values : List String} {label : String} :
    unique fail values label = .ok () ↔ values.Nodup := ite_ok_iff

/-! ## Identifiers are texts -/

theorem isSpace_eq_false {accepts : Char → Bool} (h : (whitespace.all fun c => !accepts c) = true) {c : Char}
    (hc : accepts c = true) : isSpace c = false := by
  rw [isSpace, List.contains_eq_mem, decide_eq_false_iff_not]
  intro hMem
  simpa [hc] using List.all_eq_true.mp h c hMem

theorem isIdentifierChar_val {c : Char} (h : isIdentifierChar c = true) : 0x20 ≤ c.val ∧ c.val < 0x10000 := by
  simp only [isIdentifierChar, isIdentifierStart, isLower, isDigit, Bool.or_eq_true, Bool.and_eq_true,
    decide_eq_true_eq, beq_iff_eq] at h
  rcases h with (((⟨hLow, hHigh⟩ | ⟨hLow, hHigh⟩) | rfl) | rfl) | rfl
  · exact ⟨UInt32.le_trans (by decide : 0x20 ≤ 'a'.val) hLow,
      UInt32.lt_of_le_of_lt hHigh (by decide : 'z'.val < 0x10000)⟩
  · exact ⟨UInt32.le_trans (by decide : 0x20 ≤ '0'.val) hLow,
      UInt32.lt_of_le_of_lt hHigh (by decide : '9'.val < 0x10000)⟩
  all_goals decide

theorem lengthOf_eq_length {cs : List Char} (h : ∀ c ∈ cs, c.val < 0x10000) : lengthOf cs = cs.length := by
  induction cs with
  | nil => rfl
  | cons c cs ih =>
    rw [List.forall_mem_cons] at h
    have hTail : (cs.map codeUnits).sum = cs.length := ih h.2
    simp [lengthOf, codeUnits, h.1, hTail, Nat.add_comm]

theorem identifier_chars {s : String} (h : isIdentifier s = true) :
    (∀ c ∈ s.toList, isIdentifierChar c = true) ∧ s.toList ≠ [] ∧ s.toList.length ≤ 128 := by
  rw [isIdentifier, Bool.and_eq_true, matchesIdentifier] at h
  obtain ⟨h, _⟩ := h
  split at h
  · cases h
  · rename_i c cs hChars
    simp only [Bool.and_eq_true, List.all_eq_true, decide_eq_true_eq] at h
    obtain ⟨⟨hStart, hRest⟩, hLength⟩ := h
    rw [hChars]
    refine ⟨?_, List.cons_ne_nil c cs, Nat.succ_le_succ hLength⟩
    rw [List.forall_mem_cons]
    exact ⟨by simp [isIdentifierChar, hStart], hRest⟩

theorem acceptsText_of_chars {max : Nat} {s : String} (hNe : s.toList ≠ [])
    (hSpace : ∀ c ∈ s.toList, isSpace c = false) (hLength : Js.length s ≤ max)
    (hControl : ∀ c ∈ s.toList, isControl c = false) (hSecret : sanitizeSecretString s = s) :
    acceptsText max s = true ∧ trim s = s := by
  have hTrim : trim s = s := by rw [trim, trimList_eq_self hSpace, String.ofList_toList]
  refine ⟨acceptsText_iff.mpr ⟨?_, hLength, hControl, hSecret⟩, hTrim⟩
  rw [hTrim]
  rintro rfl
  exact hNe rfl

theorem isControl_eq_false {c : Char} (h : isIdentifierChar c = true) : isControl c = false := by
  rw [isControl, decide_eq_false_iff_not, UInt32.not_lt]
  exact (isIdentifierChar_val h).1

theorem identifier_acceptsText {s : String} {max : Nat} (h : isIdentifier s = true) (hMax : 128 ≤ max) :
    acceptsText max s = true ∧ trim s = s := by
  obtain ⟨hChars, hNe, hLength⟩ := identifier_chars h
  have hSecret : sanitizeSecretString s = s := by
    rw [isIdentifier, Bool.and_eq_true, beq_iff_eq] at h
    exact h.2
  refine acceptsText_of_chars hNe ?_ ?_ (fun c hc => isControl_eq_false (hChars c hc)) hSecret
  · intro c hc
    exact isSpace_eq_false (by decide) (hChars c hc)
  · rw [Js.length, lengthOf_eq_length fun c hc => (isIdentifierChar_val (hChars c hc)).2]
    exact hLength.trans hMax

def digestName (before value : String) : String := before ++ String.ofList ((sha256 value).toList.take 32)

theorem digestName_isIdentifier {before : String} (hBefore : matchesIdentifier before = true)
    (hName : (before.toList.all fun c => nameChars.contains c) = true) (hLength : before.toList.length ≤ 96)
    (value : String) : isIdentifier (digestName before value) = true := by
  have hHex : (Sha256.hexChars.all fun c => nameChars.contains c && isIdentifierChar c) = true := by decide
  have hDigest : ∀ c ∈ (sha256 value).toList.take 32, c ∈ nameChars ∧ isIdentifierChar c = true := by
    intro c hc
    have hMem := List.contains_iff_mem.mp (sha256_isHexChar value c (List.mem_of_mem_take hc))
    simpa using List.all_eq_true.mp hHex c hMem
  have hChars : (digestName before value).toList = before.toList ++ (sha256 value).toList.take 32 := by
    rw [digestName, String.toList_append, String.toList_ofList]
  rw [isIdentifier, Bool.and_eq_true, beq_iff_eq]
  constructor
  · rw [matchesIdentifier] at hBefore ⊢
    rw [hChars]
    split at hBefore
    · cases hBefore
    · rename_i c cs hHead
      rw [hHead] at hLength ⊢
      simp only [Bool.and_eq_true, List.all_eq_true, decide_eq_true_eq, List.cons_append, List.length_append,
        List.length_take, List.length_cons] at hBefore hLength ⊢
      refine ⟨⟨hBefore.1.1, fun d hd => ?_⟩, by omega⟩
      rcases List.mem_append.mp hd with hd | hd
      · exact hBefore.1.2 d hd
      · exact (hDigest d hd).2
  · refine sanitizeSecretString_name fun c hc => ?_
    rw [hChars, List.mem_append] at hc
    rcases hc with hc | hc
    · exact List.contains_iff_mem.mp (List.all_eq_true.mp hName c hc)
    · exact (hDigest c hc).1

theorem isIdentifier_of_name {s : String} (hMatches : matchesIdentifier s = true)
    (hName : (s.toList.all fun c => nameChars.contains c) = true) : isIdentifier s = true := by
  rw [isIdentifier, Bool.and_eq_true, beq_iff_eq]
  refine ⟨hMatches, sanitizeSecretString_name fun c hc => ?_⟩
  exact List.contains_iff_mem.mp (List.all_eq_true.mp hName c hc)

theorem acceptsText_of_name {max : Nat} {s : String} (hNe : s.toList ≠ [])
    (hName : ∀ c ∈ s.toList, c ∈ nameChars) (hLength : s.toList.length ≤ max) :
    acceptsText max s = true ∧ trim s = s := by
  have hPlain : (nameChars.all fun c => !isSpace c && !isControl c && decide (c.val < 0x10000)) = true := by decide
  have hChar : ∀ c ∈ s.toList, (isSpace c = false ∧ isControl c = false) ∧ c.val < 0x10000 := by
    intro c hc
    simpa only [Bool.and_eq_true, Bool.not_eq_true', decide_eq_true_eq] using
      List.all_eq_true.mp hPlain c (hName c hc)
  refine acceptsText_of_chars hNe (fun c hc => (hChar c hc).1.1) ?_ (fun c hc => (hChar c hc).1.2)
    (sanitizeSecretString_name hName)
  rw [Js.length, lengthOf_eq_length fun c hc => (hChar c hc).2]
  exact hLength

theorem Hash.mem_nameChars (hash : Hash) : ∀ c ∈ hash.val.toList, c ∈ nameChars := by
  have hHex : (Sha256.hexChars.all fun c => nameChars.contains c) = true := by decide
  intro c hc
  have hHash := hash.property
  rw [isHash, Bool.and_eq_true, List.all_eq_true] at hHash
  have hMem := List.contains_iff_mem.mp (hHash.2 c hc)
  exact List.contains_iff_mem.mp (List.all_eq_true.mp hHex c hMem)

end GhostApi.Validation
