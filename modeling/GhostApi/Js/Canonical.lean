import GhostApi.Js.Date
import GhostApi.Js.Value
import Mathlib.Data.Nat.Init
import Mathlib.Tactic.Common

/-!
# The canonical text determines the value

Two plain values with the same canonical text are the same up to the order in
which their objects list their members.
-/

namespace Js.Json

/-! ## Printing without sorting -/

mutual
def print : Json → List Char
  | .null => ['n', 'u', 'l', 'l']
  | .bool b => if b then ['t', 'r', 'u', 'e'] else ['f', 'a', 'l', 's', 'e']
  | .number z => (toString z).toList
  | .fraction text => text.toList
  | .string s => (quote s).toList
  | .array [] => ['[', ']']
  | .array (item :: rest) => '[' :: (print item ++ printItems rest)
  | .object [] => ['\x7b', '\x7d']
  | .object ((key, value) :: rest) => '\x7b' :: ((quote key).toList ++ ':' :: (print value ++ printFields rest))

def printItems : List Json → List Char
  | [] => [']']
  | item :: rest => ',' :: (print item ++ printItems rest)

def printFields : List (String × Json) → List Char
  | [] => ['\x7d']
  | (key, value) :: rest => ',' :: ((quote key).toList ++ ':' :: (print value ++ printFields rest))
end

def isNumberChar (c : Char) : Bool := isDigit c || c == '-' || c == '+' || c == '.' || c == 'e'

def isFraction (text : String) : Bool :=
  text.toList.all isNumberChar && text.toList.any fun c => c == '.' || c == 'e'

mutual
def Plain : Json → Prop
  | .fraction text => isFraction text = true
  | .array items => PlainItems items
  | .object fields => PlainFields fields
  | _ => True

def PlainItems : List Json → Prop
  | [] => True
  | item :: rest => Plain item ∧ PlainItems rest

def PlainFields : List (String × Json) → Prop
  | [] => True
  | (_, value) :: rest => Plain value ∧ PlainFields rest
end

/-! ## Numbers -/

theorem repr_injective {m n : Nat} (h : m.repr = n.repr) : m = n := by
  have hDigits := congrArg String.toList h
  rw [Nat.toList_repr, Nat.toList_repr] at hDigits
  calc m = Nat.ofDigitChars 10 (Nat.toDigits 10 m) 0 := Nat.ofDigitChars_ten_toDigits.symm
    _ = Nat.ofDigitChars 10 (Nat.toDigits 10 n) 0 := by rw [hDigits]
    _ = n := Nat.ofDigitChars_ten_toDigits

theorem isDigit_repr {n : Nat} : ∀ c ∈ n.repr.toList, isDigit c = true := by
  intro c hc
  rw [Nat.toList_repr] at hc
  have hDigit := Nat.isDigit_of_mem_toDigits (by decide) (by decide) hc
  simpa [isDigit, Char.isDigit, Char.le_def] using hDigit

theorem digit_mem {c : Char} (h : isDigit c = true) : c ∈ ['0', '1', '2', '3', '4', '5', '6', '7', '8', '9'] := by
  simp only [isDigit, Bool.and_eq_true, decide_eq_true_eq, Char.le_def, UInt32.le_iff_toNat_le] at h
  obtain ⟨hLow, hHigh⟩ := h
  change 48 ≤ c.toNat at hLow
  change c.toNat ≤ 57 at hHigh
  rw [← Char.ofNat_toNat c]
  have hCases : c.toNat = 48 ∨ c.toNat = 49 ∨ c.toNat = 50 ∨ c.toNat = 51 ∨ c.toNat = 52 ∨ c.toNat = 53 ∨
      c.toNat = 54 ∨ c.toNat = 55 ∨ c.toNat = 56 ∨ c.toNat = 57 := by omega
  rcases hCases with h | h | h | h | h | h | h | h | h | h <;> rw [h] <;> decide

theorem toString_of_nonneg {z : Int} (h : 0 ≤ z) : toString z = z.toNat.repr := by
  rw [Int.toString_eq_repr, Int.repr_eq_if, if_pos h]

theorem toString_of_neg {z : Int} (h : z < 0) : (toString z).toList = '-' :: (-z).toNat.repr.toList := by
  rw [Int.toString_eq_repr, Int.repr_eq_if, if_neg (by omega), String.toList_append]
  rfl

theorem toString_sign {z : Int} {c : Char} (hc : c ∈ (toString z).toList) : isDigit c = true ∨ c = '-' := by
  rcases Int.lt_or_le z 0 with hz | hz
  · rw [toString_of_neg hz] at hc
    exact (List.mem_cons.mp hc).symm.imp_left (isDigit_repr c)
  · rw [toString_of_nonneg hz] at hc
    exact .inl (isDigit_repr c hc)

theorem isFraction_chars {text : String} (h : isFraction text = true) :
    text.toList ≠ [] ∧ (∀ c ∈ text.toList, isNumberChar c = true) ∧ ∀ z : Int, toString z ≠ text := by
  rw [isFraction, Bool.and_eq_true, List.all_eq_true, List.any_eq_true] at h
  obtain ⟨hChars, c, hc, hMark⟩ := h
  refine ⟨List.ne_nil_of_mem hc, hChars, ?_⟩
  rintro z rfl
  rcases toString_sign hc with hDigit | rfl
  · simp only [Bool.or_eq_true, beq_iff_eq] at hMark
    rcases hMark with rfl | rfl
    all_goals cases hDigit
  · cases hMark

theorem toString_chars (z : Int) : (toString z).toList ≠ [] ∧ ∀ c ∈ (toString z).toList, isNumberChar c = true := by
  refine ⟨?_, fun c hc => ?_⟩
  · rcases Int.lt_or_le z 0 with hz | hz
    · rw [toString_of_neg hz]
      exact List.cons_ne_nil _ _
    · rw [toString_of_nonneg hz, Nat.toList_repr]
      exact Nat.toDigits_ne_nil
  · rcases toString_sign hc with hDigit | rfl
    · simp [isNumberChar, hDigit]
    · rfl

theorem toString_ne_of_sign {y z : Int} (hy : 0 ≤ y) (hz : z < 0) : toString y ≠ toString z := by
  intro h
  have hMinus : '-' ∈ (toString y).toList := by
    rw [h, toString_of_neg hz]
    exact List.mem_cons_self
  rw [toString_of_nonneg hy] at hMinus
  exact absurd (isDigit_repr _ hMinus) (by decide)

theorem toString_injective {y z : Int} (h : toString y = toString z) : y = z := by
  rcases Int.lt_or_le y 0 with hy | hy <;> rcases Int.lt_or_le z 0 with hz | hz
  · have hText := congrArg String.toList h
    rw [toString_of_neg hy, toString_of_neg hz] at hText
    have hNat := repr_injective (String.toList_inj.mp (List.cons.inj hText).2)
    omega
  · exact absurd h.symm (toString_ne_of_sign hz hy)
  · exact absurd h (toString_ne_of_sign hy hz)
  · rw [toString_of_nonneg hy, toString_of_nonneg hz] at h
    have hNat := repr_injective h
    omega

/-! ## Strings -/

theorem quote_toList (s : String) : (quote s).toList = '"' :: (s.toList.flatMap escape ++ ['"']) := by
  simp [quote]

def unescaped (c : Char) : Char :=
  if c == 'b' then '\x08' else if c == 'f' then '\x0c' else if c == 'n' then '\n' else if c == 'r' then '\r'
  else if c == 't' then '\t' else c

def hexValue (c : Char) : Nat := "0123456789abcdef".toList.idxOf c

def unescape : List Char → Option (Char × List Char)
  | '\\' :: 'u' :: _ :: _ :: high :: low :: rest => some (Char.ofNat (16 * hexValue high + hexValue low), rest)
  | '\\' :: c :: rest => some (unescaped c, rest)
  | c :: rest => some (c, rest)
  | [] => none

theorem hexValue_hexDigit {n : Nat} (h : n < 16) : hexValue (hexDigit n) = n := by
  have hAll : ((List.range 16).all fun n => hexValue (hexDigit n) == n) = true := by decide
  simpa using List.all_eq_true.mp hAll n (List.mem_range.mpr h)

theorem unescape_escape (c : Char) (rest : List Char) : unescape (escape c ++ rest) = some (c, rest) := by
  rw [escape]
  split_ifs with hQuote hSlash hBack hForm hLine hReturn hTab hControl
  · simp_all [unescape, unescaped]
  · simp_all [unescape, unescaped]
  · simp_all [unescape, unescaped]
  · simp_all [unescape, unescaped]
  · simp_all [unescape, unescaped]
  · simp_all [unescape, unescaped]
  · simp_all [unescape, unescaped]
  · have hSmall : c.toNat < 32 := by
      rw [isControl, decide_eq_true_eq] at hControl
      exact hControl
    have hValue : 16 * (c.toNat / 16) + c.toNat % 16 = c.toNat := by omega
    simp only [List.cons_append, List.nil_append, unescape, hexValue_hexDigit (show c.toNat / 16 < 16 by omega),
      hexValue_hexDigit (show c.toNat % 16 < 16 by omega), hValue, Char.ofNat_toNat]
  · have hPlain : c ≠ '\\' := by simpa using hSlash
    simp only [List.cons_append, List.nil_append]
    rw [unescape]
    · exact fun _ _ _ _ _ h => absurd h hPlain
    · exact fun _ _ h => absurd h hPlain

theorem escape_append_inj {c d : Char} {xs ys : List Char} (h : escape c ++ xs = escape d ++ ys) :
    c = d ∧ xs = ys := by
  have hRead := congrArg unescape h
  rw [unescape_escape, unescape_escape] at hRead
  exact Prod.mk.inj (Option.some.inj hRead)

theorem escape_head (c : Char) : ∃ x xs, escape c = x :: xs ∧ x ≠ '"' := by
  rw [escape]
  split_ifs with hQuote
  all_goals first
    | exact ⟨_, _, rfl, by decide⟩
    | exact ⟨_, _, rfl, by simpa using hQuote⟩

theorem escaped_append_inj {cs ds xs ys : List Char}
    (h : cs.flatMap escape ++ '"' :: xs = ds.flatMap escape ++ '"' :: ys) : cs = ds ∧ xs = ys := by
  induction cs generalizing ds with
  | nil =>
    cases ds with
    | nil => exact ⟨rfl, (List.cons.inj h).2⟩
    | cons d ds =>
      obtain ⟨x, rest, hEscape, hHead⟩ := escape_head d
      rw [List.flatMap_cons, hEscape] at h
      exact absurd (List.cons.inj h).1.symm hHead
  | cons c cs ih =>
    cases ds with
    | nil =>
      obtain ⟨x, rest, hEscape, hHead⟩ := escape_head c
      rw [List.flatMap_cons, hEscape] at h
      exact absurd (List.cons.inj h).1 hHead
    | cons d ds =>
      rw [List.flatMap_cons, List.flatMap_cons, List.append_assoc, List.append_assoc] at h
      obtain ⟨rfl, hRest⟩ := escape_append_inj h
      obtain ⟨rfl, hTail⟩ := ih hRest
      exact ⟨rfl, hTail⟩

theorem quote_append_inj {s t : String} {xs ys : List Char} (h : (quote s).toList ++ xs = (quote t).toList ++ ys) :
    s = t ∧ xs = ys := by
  rw [quote_toList, quote_toList, List.cons_append, List.cons_append, List.append_assoc, List.append_assoc] at h
  obtain ⟨hText, hRest⟩ := escaped_append_inj (List.cons.inj h).2
  exact ⟨String.toList_inj.mp hText, hRest⟩

/-! ## Printed values -/

def Delimited : List Char → Prop
  | [] => True
  | c :: _ => isNumberChar c = false

theorem number_append_inj {as bs xs ys : List Char} (ha : ∀ c ∈ as, isNumberChar c = true)
    (hb : ∀ c ∈ bs, isNumberChar c = true) (hx : Delimited xs) (hy : Delimited ys) (h : as ++ xs = bs ++ ys) :
    as = bs ∧ xs = ys := by
  induction as generalizing bs with
  | nil =>
    cases bs with
    | nil => exact ⟨rfl, h⟩
    | cons b bs =>
      rw [show xs = b :: (bs ++ ys) from h, Delimited] at hx
      exact absurd hx (by simp [hb b])
  | cons a as ih =>
    cases bs with
    | nil =>
      rw [← show a :: (as ++ xs) = ys from h, Delimited] at hy
      exact absurd hy (by simp [ha a])
    | cons b bs =>
      obtain ⟨hHead, hTail⟩ := List.cons.inj h
      obtain ⟨rfl, hRest⟩ := ih (fun c hc => ha c (List.mem_cons_of_mem _ hc))
        (fun c hc => hb c (List.mem_cons_of_mem _ hc)) hTail
      exact ⟨by rw [hHead], hRest⟩

/-- The kind of a value, as its first character tells it. -/
inductive Kind
  | null
  | yes
  | no
  | number
  | string
  | array
  | object
  | other
  deriving DecidableEq

def kind : Json → Kind
  | .null => .null
  | .bool true => .yes
  | .bool false => .no
  | .number _ => .number
  | .fraction _ => .number
  | .string _ => .string
  | .array _ => .array
  | .object _ => .object

def kindOf (c : Char) : Kind :=
  if isNumberChar c then .number else if c == 'n' then .null else if c == 't' then .yes else if c == 'f' then .no
  else if c == '"' then .string else if c == '[' then .array
  else if c == '\x7b' then .object else .other

theorem number_head {text : List Char} (hNe : text ≠ []) (hChars : ∀ c ∈ text, isNumberChar c = true) :
    ∃ c cs, text = c :: cs ∧ kindOf c = .number := by
  cases text with
  | nil => exact absurd rfl hNe
  | cons c cs => exact ⟨c, cs, rfl, if_pos (hChars c List.mem_cons_self)⟩

theorem print_head {v : Json} (h : v.Plain) : ∃ c cs, v.print = c :: cs ∧ kindOf c = v.kind := by
  match v with
  | .null => exact ⟨_, _, by rw [print], rfl⟩
  | .bool true => exact ⟨_, _, by rw [print, if_pos rfl], rfl⟩
  | .bool false => exact ⟨_, _, by rw [print, if_neg Bool.false_ne_true], rfl⟩
  | .number z =>
    rw [print]
    exact number_head (toString_chars z).1 (toString_chars z).2
  | .fraction text =>
    rw [Plain] at h
    obtain ⟨hNe, hChars, _⟩ := isFraction_chars h
    rw [print]
    exact number_head hNe hChars
  | .string s =>
    rw [print, quote_toList]
    exact ⟨_, _, rfl, rfl⟩
  | .array [] => exact ⟨_, _, by rw [print], rfl⟩
  | .array (item :: rest) => exact ⟨_, _, by rw [print], rfl⟩
  | .object [] => exact ⟨_, _, by rw [print], rfl⟩
  | .object ((key, value) :: rest) => exact ⟨_, _, by rw [print], rfl⟩

theorem kind_of_print {v w : Json} {xs ys : List Char} (hv : v.Plain) (hw : w.Plain)
    (h : v.print ++ xs = w.print ++ ys) : v.kind = w.kind := by
  obtain ⟨c, cs, hText, hKind⟩ := print_head hv
  obtain ⟨d, ds, hText', hKind'⟩ := print_head hw
  rw [hText, hText'] at h
  rw [← hKind, ← hKind', (List.cons.inj h).1]

theorem print_ne_bracket {v : Json} (h : v.Plain) (xs ys : List Char) : ']' :: xs ≠ v.print ++ ys := by
  obtain ⟨c, cs, hText, hKind⟩ := print_head h
  intro hEq
  rw [hText] at hEq
  rw [← (List.cons.inj hEq).1] at hKind
  match v with
  | .bool true => cases hKind
  | .bool false => cases hKind
  | .null | .number _ | .fraction _ | .string _ | .array _ | .object _ => cases hKind

theorem delimited_printItems (items : List Json) (xs : List Char) : Delimited (printItems items ++ xs) := by
  cases items with
  | nil =>
    rw [printItems]
    exact rfl
  | cons item rest =>
    rw [printItems]
    exact rfl

theorem delimited_printFields (fields : List (String × Json)) (xs : List Char) :
    Delimited (printFields fields ++ xs) := by
  cases fields with
  | nil =>
    rw [printFields]
    exact rfl
  | cons field rest =>
    rw [printFields]
    exact rfl

/-- Values like this one are read off the front of a text. -/
def Readable (v : Json) : Prop := ∀ w xs ys, v.Plain → w.Plain → Delimited xs → Delimited ys →
  v.print ++ xs = w.print ++ ys → v = w ∧ xs = ys

theorem cons_of_print {item item' : Json} {rest rest' : List Json} {xs ys : List Char} (hItem : Readable item)
    (hRest : printItems rest ++ xs = printItems rest' ++ ys → rest = rest' ∧ xs = ys) (h : item.Plain) (h' : item'.Plain)
    (hText : item.print ++ (printItems rest ++ xs) = item'.print ++ (printItems rest' ++ ys)) :
    item :: rest = item' :: rest' ∧ xs = ys := by
  obtain ⟨rfl, hTail⟩ := hItem _ _ _ h h' (delimited_printItems rest xs) (delimited_printItems rest' ys) hText
  obtain ⟨rfl, hEnd⟩ := hRest hTail
  exact ⟨rfl, hEnd⟩

theorem printItems_append_inj {items items' : List Json} {xs ys : List Char}
    (hItems : ∀ item ∈ items, Readable item) (hi : PlainItems items) (hi' : PlainItems items')
    (h : printItems items ++ xs = printItems items' ++ ys) : items = items' ∧ xs = ys := by
  induction items generalizing items' with
  | nil =>
    cases items' with
    | nil => simpa [printItems] using h
    | cons item' rest' => simp [printItems] at h
  | cons item rest ih =>
    cases items' with
    | nil => simp [printItems] at h
    | cons item' rest' =>
      rw [PlainItems] at hi hi'
      rw [List.forall_mem_cons] at hItems
      simp only [printItems, List.cons_append, List.append_assoc, List.cons.injEq, true_and] at h
      exact cons_of_print hItems.1 (ih hItems.2 hi.2 hi'.2) hi.1 hi'.1 h

theorem field_of_print {key key' : String} {v v' : Json} {rest rest' : List (String × Json)} {xs ys : List Char}
    (hValue : Readable v) (hRest : printFields rest ++ xs = printFields rest' ++ ys → rest = rest' ∧ xs = ys)
    (h : v.Plain) (h' : v'.Plain)
    (hText : (quote key).toList ++ ':' :: (v.print ++ (printFields rest ++ xs)) =
      (quote key').toList ++ ':' :: (v'.print ++ (printFields rest' ++ ys))) :
    (key, v) :: rest = (key', v') :: rest' ∧ xs = ys := by
  obtain ⟨rfl, hAfter⟩ := quote_append_inj hText
  obtain ⟨rfl, hTail⟩ := hValue _ _ _ h h' (delimited_printFields rest xs) (delimited_printFields rest' ys)
    (List.cons.inj hAfter).2
  obtain ⟨rfl, hEnd⟩ := hRest hTail
  exact ⟨rfl, hEnd⟩

theorem printFields_append_inj {fields fields' : List (String × Json)} {xs ys : List Char}
    (hFields : ∀ field ∈ fields, Readable field.2) (hf : PlainFields fields) (hf' : PlainFields fields')
    (h : printFields fields ++ xs = printFields fields' ++ ys) : fields = fields' ∧ xs = ys := by
  induction fields generalizing fields' with
  | nil =>
    cases fields' with
    | nil => simpa [printFields] using h
    | cons field' rest' => simp [printFields] at h
  | cons field rest ih =>
    cases fields' with
    | nil => simp [printFields] at h
    | cons field' rest' =>
      rw [PlainFields] at hf hf'
      rw [List.forall_mem_cons] at hFields
      simp only [printFields, List.cons_append, List.append_assoc, List.cons.injEq, true_and] at h
      exact field_of_print hFields.1 (ih hFields.2 hf.2 hf'.2) hf.1 hf'.1 h

theorem readable_array {items : List Json} (hItems : ∀ item ∈ items, Readable item) : Readable (.array items) := by
  intro w xs ys hv hw _ _ h
  have hKind := kind_of_print hv hw h
  cases w with
  | array items' =>
    rw [Plain] at hv hw
    cases items with
    | nil =>
      cases items' with
      | nil => simpa [print] using h
      | cons item' rest' =>
        simp only [print, List.cons_append, List.append_assoc, List.cons.injEq, true_and] at h
        exact absurd h (print_ne_bracket hw.1 _ _)
    | cons item rest =>
      cases items' with
      | nil =>
        simp only [print, List.cons_append, List.append_assoc, List.cons.injEq, true_and] at h
        exact absurd h.symm (print_ne_bracket hv.1 _ _)
      | cons item' rest' =>
        rw [List.forall_mem_cons] at hItems
        simp only [print, List.cons_append, List.append_assoc, List.cons.injEq, true_and] at h
        obtain ⟨hSame, hEnd⟩ := cons_of_print hItems.1 (printItems_append_inj hItems.2 hv.2 hw.2) hv.1 hw.1 h
        exact ⟨congrArg Json.array hSame, hEnd⟩
  | null => cases hKind
  | bool b => cases b <;> cases hKind
  | number z => cases hKind
  | fraction text => cases hKind
  | string s => cases hKind
  | object fields => cases hKind

theorem readable_object {fields : List (String × Json)} (hFields : ∀ field ∈ fields, Readable field.2) :
    Readable (.object fields) := by
  intro w xs ys hv hw _ _ h
  have hKind := kind_of_print hv hw h
  cases w with
  | object fields' =>
    rw [Plain] at hv hw
    cases fields with
    | nil =>
      cases fields' with
      | nil => simpa [print] using h
      | cons field' rest' => simp [print, quote_toList] at h
    | cons field rest =>
      cases fields' with
      | nil => simp [print, quote_toList] at h
      | cons field' rest' =>
        rw [List.forall_mem_cons] at hFields
        simp only [print, List.cons_append, List.append_assoc, List.cons.injEq, true_and] at h
        obtain ⟨hSame, hEnd⟩ := field_of_print hFields.1 (printFields_append_inj hFields.2 hv.2 hw.2) hv.1 hw.1 h
        exact ⟨congrArg Json.object hSame, hEnd⟩
  | null => cases hKind
  | bool b => cases b <;> cases hKind
  | number z => cases hKind
  | fraction text => cases hKind
  | string s => cases hKind
  | array items => cases hKind

theorem readable_bool (b : Bool) : Readable (.bool b) := by
  intro w xs ys hv hw _ _ h
  have hKind := kind_of_print hv hw h
  cases w with
  | bool b' =>
    have hSame : b = b' := by
      cases b <;> cases b' <;> first | rfl | cases hKind
    rw [hSame] at h ⊢
    exact ⟨rfl, List.append_cancel_left h⟩
  | null => cases b <;> cases hKind
  | number z => cases b <;> cases hKind
  | fraction text => cases b <;> cases hKind
  | string s => cases b <;> cases hKind
  | array items => cases b <;> cases hKind
  | object fields => cases b <;> cases hKind

def numeral : Json → Option String
  | .number z => some (toString z)
  | .fraction text => some text
  | _ => none

theorem numeral_chars {v : Json} {text : String} (hv : v.Plain) (h : v.numeral = some text) :
    v.print = text.toList ∧ ∀ c ∈ text.toList, isNumberChar c = true := by
  cases v with
  | number z =>
    cases h
    exact ⟨by rw [print], (toString_chars z).2⟩
  | fraction text =>
    cases h
    rw [Plain] at hv
    exact ⟨by rw [print], (isFraction_chars hv).2.1⟩
  | null | bool | string | array | object => cases h

theorem numeral_injective {v w : Json} {text : String} (hv : v.Plain) (hw : w.Plain) (h : v.numeral = some text)
    (h' : w.numeral = some text) : v = w := by
  cases v with
  | number y =>
    cases w with
    | number z => rw [toString_injective ((Option.some.inj h).trans (Option.some.inj h').symm)]
    | fraction t =>
      rw [Plain] at hw
      exact absurd ((Option.some.inj h).trans (Option.some.inj h').symm) ((isFraction_chars hw).2.2 y)
    | null | bool | string | array | object => cases h'
  | fraction t =>
    cases w with
    | number z =>
      rw [Plain] at hv
      exact absurd ((Option.some.inj h').trans (Option.some.inj h).symm) ((isFraction_chars hv).2.2 z)
    | fraction t' => rw [Option.some.inj h, Option.some.inj h']
    | null | bool | string | array | object => cases h'
  | null | bool | string | array | object => cases h

theorem numeral_of_kind {v : Json} (h : v.kind = .number) : ∃ text, v.numeral = some text := by
  match v with
  | .number z => exact ⟨_, rfl⟩
  | .fraction text => exact ⟨_, rfl⟩
  | .bool true => cases h
  | .bool false => cases h
  | .null | .string _ | .array _ | .object _ => cases h

theorem readable_number {v : Json} (hNumber : v.kind = .number) : Readable v := by
  intro w xs ys hv hw hx hy h
  have hKind := kind_of_print hv hw h
  obtain ⟨text, hText⟩ := numeral_of_kind hNumber
  obtain ⟨text', hText'⟩ := numeral_of_kind (hKind.symm.trans hNumber)
  obtain ⟨hPrint, hChars⟩ := numeral_chars hv hText
  obtain ⟨hPrint', hChars'⟩ := numeral_chars hw hText'
  rw [hPrint, hPrint'] at h
  obtain ⟨hSame, hEnd⟩ := number_append_inj hChars hChars' hx hy h
  rw [← String.toList_inj.mp hSame] at hText'
  exact ⟨numeral_injective hv hw hText hText', hEnd⟩

theorem readable_string (s : String) : Readable (.string s) := by
  intro w xs ys hv hw _ _ h
  have hKind := kind_of_print hv hw h
  cases w with
  | string t =>
    rw [print, print] at h
    obtain ⟨rfl, hEnd⟩ := quote_append_inj h
    exact ⟨rfl, hEnd⟩
  | bool b => cases b <;> cases hKind
  | null | number | fraction | array | object => cases hKind

theorem readable_null : Readable .null := by
  intro w xs ys hv hw _ _ h
  have hKind := kind_of_print hv hw h
  cases w with
  | null => exact ⟨rfl, List.append_cancel_left h⟩
  | bool b => cases b <;> cases hKind
  | string | number | fraction | array | object => cases hKind

/-- By induction on the size of the value. -/
theorem readable (v : Json) : Readable v := by
  induction hSize : sizeOf v using Nat.strong_induction_on generalizing v with
  | h n ih =>
    cases v with
    | null => exact readable_null
    | bool b => exact readable_bool b
    | number z => exact readable_number rfl
    | fraction text => exact readable_number rfl
    | string s => exact readable_string s
    | array items =>
      refine readable_array fun item hItem => ih (sizeOf item) ?_ item rfl
      have hLt := List.sizeOf_lt_of_mem hItem
      rw [← hSize, Json.array.sizeOf_spec]
      omega
    | object fields =>
      refine readable_object fun field hField => ih (sizeOf field.2) ?_ field.2 rfl
      have hLt := List.sizeOf_lt_of_mem hField
      obtain ⟨key, value⟩ := field
      rw [Prod.mk.sizeOf_spec] at hLt
      rw [← hSize, Json.object.sizeOf_spec]
      simp only
      omega

theorem print_injective {v w : Json} (hv : v.Plain) (hw : w.Plain) (h : v.print = w.print) : v = w := by
  refine (readable v w [] [] hv hw trivial trivial ?_).1
  rw [h]

/-! ## The canonical text -/

mutual
/-- The value with the members of its objects in key order. -/
def ordered : Json → Json
  | .array items => .array (orderedItems items)
  | .object fields => .object ((orderedFields fields).mergeSort fun a b => keyLe a.1 b.1)
  | .null => .null
  | .bool b => .bool b
  | .number z => .number z
  | .fraction text => .fraction text
  | .string s => .string s

def orderedItems : List Json → List Json
  | [] => []
  | item :: rest => ordered item :: orderedItems rest

def orderedFields : List (String × Json) → List (String × Json)
  | [] => []
  | (key, value) :: rest => (key, ordered value) :: orderedFields rest
end

def text (v : Json) : String := String.ofList v.print

theorem join_cons (x y : String) (rest : List String) : join "," (x :: y :: rest) = x ++ ("," ++ join "," (y :: rest)) := by
  rw [join, join, String.intercalate_cons_of_ne_nil (List.cons_ne_nil y rest), String.append_assoc]

theorem join_items (item : Json) (rest : List Json) :
    (join "," ((item :: rest).map text)).toList ++ [']'] = item.print ++ printItems rest := by
  induction rest generalizing item with
  | nil => simp [join, text, printItems]
  | cons next rest ih =>
    have hRest := ih next
    rw [List.map_cons, List.map_cons, join_cons, ← List.map_cons, String.toList_append, String.toList_append,
      List.append_assoc, List.append_assoc, hRest, text, String.toList_ofList, printItems]
    rfl

def member (field : String × Json) : String := quote field.1 ++ ":" ++ text field.2

theorem member_toList (field : String × Json) :
    (member field).toList = (quote field.1).toList ++ ':' :: field.2.print := by
  simp [member, text]

theorem join_fields (field : String × Json) (rest : List (String × Json)) :
    (join "," ((field :: rest).map member)).toList ++ ['\x7d'] =
      (quote field.1).toList ++ ':' :: (field.2.print ++ printFields rest) := by
  induction rest generalizing field with
  | nil => simp [join, member_toList, printFields]
  | cons next rest ih =>
    have hRest := ih next
    rw [List.map_cons, List.map_cons, join_cons, ← List.map_cons, String.toList_append, String.toList_append,
      List.append_assoc, List.append_assoc, hRest, member_toList, printFields]
    simp

theorem print_array (items : List Json) : text (.array items) = "[" ++ join "," (items.map text) ++ "]" := by
  apply String.toList_inj.mp
  cases items with
  | nil => rfl
  | cons item rest =>
    rw [text, String.toList_ofList, print, String.toList_append, String.toList_append, List.append_assoc]
    exact congrArg ('[' :: ·) (join_items item rest).symm

theorem print_object (fields : List (String × Json)) :
    text (.object fields) = "\x7b" ++ join "," (fields.map member) ++ "\x7d" := by
  apply String.toList_inj.mp
  cases fields with
  | nil => rfl
  | cons field rest =>
    rw [text, String.toList_ofList, print, String.toList_append, String.toList_append, List.append_assoc]
    exact congrArg ('\x7b' :: ·) (join_fields field rest).symm

mutual
theorem canonical_eq : ∀ v : Json, v.canonical = text v.ordered
  | .null => rfl
  | .bool true => rfl
  | .bool false => rfl
  | .number z => by rw [canonical, ordered, text, print, String.ofList_toList]
  | .fraction t => by rw [canonical, ordered, text, print, String.ofList_toList]
  | .string s => by rw [canonical, ordered, text, print, String.ofList_toList]
  | .array items => by rw [canonical, ordered, print_array, canonicalItems_eq items]
  | .object fields => by
    have hSort : sortKeys (canonicalFields fields) =
        ((orderedFields fields).mergeSort fun a b => keyLe a.1 b.1).map fun field => (field.1, text field.2) := by
      rw [canonicalFields_eq fields, sortKeys]
      symm
      apply List.map_mergeSort
      exact fun _ _ _ _ => rfl
    rw [canonical, ordered, print_object, hSort, List.map_map]
    rfl

theorem canonicalItems_eq : ∀ items : List Json, canonicalItems items = (orderedItems items).map text
  | [] => rfl
  | item :: rest => by
    rw [canonicalItems, orderedItems, List.map_cons, canonical_eq item, canonicalItems_eq rest]

theorem canonicalFields_eq : ∀ fields : List (String × Json),
    canonicalFields fields = (orderedFields fields).map fun field => (field.1, text field.2)
  | [] => rfl
  | (key, value) :: rest => by
    rw [canonicalFields, orderedFields, List.map_cons, canonical_eq value, canonicalFields_eq rest]
end

theorem plainFields_iff {fields : List (String × Json)} : PlainFields fields ↔ ∀ field ∈ fields, field.2.Plain := by
  induction fields with
  | nil => simp [PlainFields]
  | cons field rest ih => rw [PlainFields, ih, List.forall_mem_cons]

mutual
theorem plain_ordered : ∀ v : Json, v.Plain → v.ordered.Plain
  | .null, h => h
  | .bool _, h => h
  | .number _, h => h
  | .fraction _, h => h
  | .string _, h => h
  | .array items, h => by
    rw [Plain] at h
    rw [ordered, Plain]
    exact plain_orderedItems items h
  | .object fields, h => by
    rw [Plain] at h
    have hFields := plainFields_iff.mp (plain_orderedFields fields h)
    rw [ordered, Plain, plainFields_iff]
    intro field hField
    exact hFields field ((List.mergeSort_perm _ _).mem_iff.mp hField)

theorem plain_orderedItems : ∀ items : List Json, PlainItems items → PlainItems (orderedItems items)
  | [], _ => trivial
  | item :: rest, h => ⟨plain_ordered item h.1, plain_orderedItems rest h.2⟩

theorem plain_orderedFields : ∀ fields : List (String × Json), PlainFields fields → PlainFields (orderedFields fields)
  | [], _ => trivial
  | (_, value) :: rest, h => ⟨plain_ordered value h.1, plain_orderedFields rest h.2⟩
end

theorem canonical_injective {v w : Json} (hv : v.Plain) (hw : w.Plain) (h : v.canonical = w.canonical) :
    v.ordered = w.ordered := by
  rw [canonical_eq, canonical_eq, text, text] at h
  exact print_injective (plain_ordered v hv) (plain_ordered w hw) (String.ofList_injective h)

theorem orderedFields_eq (fields : List (String × Json)) :
    orderedFields fields = fields.map fun field => (field.1, ordered field.2) := by
  induction fields with
  | nil => rfl
  | cons field rest ih => rw [orderedFields, ih, List.map_cons]

theorem perm_of_ordered {fields fields' : List (String × Json)}
    (h : ordered (.object fields) = ordered (.object fields')) :
    (fields.map fun field => (field.1, ordered field.2)).Perm (fields'.map fun field => (field.1, ordered field.2)) := by
  rw [ordered, ordered, orderedFields_eq, orderedFields_eq] at h
  refine (List.mergeSort_perm _ fun a b => keyLe a.1 b.1).symm.trans ?_
  rw [Json.object.inj h]
  exact List.mergeSort_perm _ _

theorem eq_of_perm_of_keys {α : Type} {xs ys : List (String × α)} (h : xs.Perm ys)
    (hKeys : xs.map Prod.fst = ys.map Prod.fst) (hNodup : (xs.map Prod.fst).Nodup) : xs = ys := by
  induction xs generalizing ys with
  | nil => exact (List.nil_perm.mp h).symm
  | cons x xs ih =>
    cases ys with
    | nil => cases hKeys
    | cons y ys =>
      obtain ⟨hKey, hRest⟩ := List.cons.inj hKeys
      rw [List.map_cons, List.nodup_cons] at hNodup
      have hSame : x = y := by
        rcases List.mem_cons.mp (h.mem_iff.mp List.mem_cons_self) with hHead | hTail
        · exact hHead
        · have hAgain : x.1 ∈ xs.map Prod.fst := by
            rw [show xs.map Prod.fst = ys.map Prod.fst from hRest]
            exact List.mem_map_of_mem hTail
          exact absurd hAgain hNodup.1
      rw [hSame] at h ⊢
      rw [ih ((List.perm_cons y).mp h) hRest hNodup.2]

end Js.Json
