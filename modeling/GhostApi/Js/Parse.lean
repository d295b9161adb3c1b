import GhostApi.Js.Canonical
import GhostApi.Js.Induction
import Mathlib.Data.List.TakeWhile

/-!
# JSON.parse on the texts that JSON.stringify writes

The reader takes a value off the front of a text without insignificant
whitespace. Each call of the reader takes one unit of fuel, so the length of
the text is enough.
-/

namespace Js.Json

/-! ## Reading a value -/

def readText : Nat → List Char → Option (List Char × List Char)
  | 0, _ => none
  | fuel + 1, cs =>
    if cs.head? = some '"' then some ([], cs.tail)
    else do
      let char ← unescape cs
      let text ← readText fuel char.2
      some (char.1 :: text.1, text.2)

def numberOf (word : List Char) : Option Json :=
  if word ≠ [] ∧ word.all isDigit then some (.number (Nat.ofDigitChars 10 word 0))
  else if word.head? = some '-' ∧ word.tail ≠ [] ∧ word.tail.all isDigit then some (.number (-(Nat.ofDigitChars 10 word.tail 0)))
  else if isFraction (String.ofList word) then some (.fraction (String.ofList word))
  else none

def readNumber (cs : List Char) : Option (Json × List Char) :=
  (numberOf (cs.takeWhile isNumberChar)).map fun value => (value, cs.dropWhile isNumberChar)

def expect (word cs : List Char) : Option (List Char) := if word.isPrefixOf cs then some (cs.drop word.length) else none

mutual
def readValue : Nat → List Char → Option (Json × List Char)
  | 0, _ => none
  | _ + 1, [] => none
  | fuel + 1, c :: cs => match kindOf c with
    | .null => (expect ['u', 'l', 'l'] cs).map fun rest => (.null, rest)
    | .yes => (expect ['r', 'u', 'e'] cs).map fun rest => (.bool true, rest)
    | .no => (expect ['a', 'l', 's', 'e'] cs).map fun rest => (.bool false, rest)
    | .number => readNumber (c :: cs)
    | .string => (readText fuel cs).map fun text => (.string (String.ofList text.1), text.2)
    | .array =>
      if cs.head? = some ']' then some (.array [], cs.tail)
      else do
        let item ← readValue fuel cs
        let items ← readItems fuel item.2
        some (.array (item.1 :: items.1), items.2)
    | .object =>
      if cs.head? = some '\x7d' then some (.object [], cs.tail)
      else do
        let field ← readField fuel cs
        let fields ← readFields fuel field.2
        some (.object (field.1 :: fields.1), fields.2)
    | .other => none

def readItems : Nat → List Char → Option (List Json × List Char)
  | 0, _ => none
  | fuel + 1, cs =>
    if cs.head? = some ']' then some ([], cs.tail)
    else do
      let rest ← expect [','] cs
      let item ← readValue fuel rest
      let items ← readItems fuel item.2
      some (item.1 :: items.1, items.2)

def readField : Nat → List Char → Option ((String × Json) × List Char)
  | 0, _ => none
  | fuel + 1, cs => do
    let rest ← expect ['"'] cs
    let key ← readText fuel rest
    let rest ← expect [':'] key.2
    let value ← readValue fuel rest
    some ((String.ofList key.1, value.1), value.2)

def readFields : Nat → List Char → Option (List (String × Json) × List Char)
  | 0, _ => none
  | fuel + 1, cs =>
    if cs.head? = some '\x7d' then some ([], cs.tail)
    else do
      let rest ← expect [','] cs
      let field ← readField fuel rest
      let fields ← readFields fuel field.2
      some (field.1 :: fields.1, fields.2)
end

/-- None when the text is no JSON text. -/
def parse (cs : List Char) : Option Json := (readValue cs.length cs).bind fun read => if read.2 = [] then some read.1 else none

/-! ## Words, numbers and texts -/

theorem expect_append (word rest : List Char) : expect word (word ++ rest) = some rest := by
  have hPrefix : word.isPrefixOf (word ++ rest) = true := by simp
  rw [expect, if_pos hPrefix, List.drop_left]

theorem takeWhile_append {word rest : List Char} (hWord : ∀ c ∈ word, isNumberChar c = true) (hRest : Delimited rest) :
    (word ++ rest).takeWhile isNumberChar = word ∧ (word ++ rest).dropWhile isNumberChar = rest := by
  induction word with
  | nil =>
    cases rest with
    | nil => exact ⟨rfl, rfl⟩
    | cons c rest =>
      rw [Delimited] at hRest
      simp [hRest]
  | cons c word ih =>
    rw [List.forall_mem_cons] at hWord
    simp [hWord.1, ih hWord.2]

theorem ofDigitChars_repr (n : Nat) : Nat.ofDigitChars 10 n.repr.toList 0 = n := by
  rw [Nat.toList_repr]
  exact Nat.ofDigitChars_ten_toDigits

theorem repr_ne_nil (n : Nat) : n.repr.toList ≠ [] := by
  rw [Nat.toList_repr]
  exact Nat.toDigits_ne_nil

theorem numberOf_toString (z : Int) : numberOf (toString z).toList = some (.number z) := by
  have hDigits : ∀ n : Nat, n.repr.toList.all isDigit = true := fun n => List.all_eq_true.mpr (isDigit_repr (n := n))
  rcases Int.lt_or_le z 0 with hz | hz
  · have hValue : -((-z).toNat : Int) = z := by omega
    rw [toString_of_neg hz, numberOf, if_neg (by simp [isDigit]), if_pos, List.tail_cons, ofDigitChars_repr, hValue]
    exact ⟨rfl, repr_ne_nil _, hDigits _⟩
  · have hValue : ((z.toNat : Nat) : Int) = z := by omega
    rw [toString_of_nonneg hz, numberOf, if_pos ⟨repr_ne_nil _, hDigits _⟩, ofDigitChars_repr, hValue]

theorem not_isDigit_mark {word : List Char} (h : (word.any fun c => c == '.' || c == 'e') = true) : word.all isDigit = false := by
  obtain ⟨c, hc, hMark⟩ := List.any_eq_true.mp h
  rw [List.all_eq_false]
  refine ⟨c, hc, ?_⟩
  simp only [Bool.or_eq_true, beq_iff_eq] at hMark
  cases hMark with
  | inl hDot =>
    subst hDot
    decide
  | inr hExponent =>
    subst hExponent
    decide

theorem numberOf_fraction {text : String} (h : isFraction text = true) : numberOf text.toList = some (.fraction text) := by
  have hMark := h
  rw [isFraction, Bool.and_eq_true] at hMark
  have hWhole := not_isDigit_mark hMark.2
  have hTail : text.toList.head? = some '-' → text.toList.tail.all isDigit = false := by
    intro hHead
    cases hText : text.toList with
    | nil => simp [hText] at hHead
    | cons c cs =>
      rw [hText] at hHead hMark
      obtain rfl : c = '-' := Option.some.inj hHead
      refine not_isDigit_mark ?_
      simpa using hMark.2
  rw [numberOf, if_neg (by simp [hWhole]), if_neg (fun hSigned => by simp [hTail hSigned.1] at hSigned), String.ofList_toList,
    if_pos h]

theorem readNumber_append {v : Json} {text : String} {rest : List Char} (hv : v.Plain) (hText : v.numeral = some text)
    (hRest : Delimited rest) : readNumber (v.print ++ rest) = some (v, rest) := by
  obtain ⟨hPrint, hChars⟩ := numeral_chars hv hText
  have hNumber : numberOf text.toList = some v := by
    cases v with
    | number z =>
      cases hText
      exact numberOf_toString z
    | fraction t =>
      cases hText
      rw [Plain] at hv
      exact numberOf_fraction hv
    | null | bool | string | array | object => cases hText
  obtain ⟨hTake, hDrop⟩ := takeWhile_append hChars hRest
  rw [hPrint, readNumber, hTake, hDrop, hNumber, Option.map_some]

theorem readValue_numeral {v : Json} {text : String} {fuel : Nat} {rest : List Char} (hv : v.Plain) (hText : v.numeral = some text)
    (hRest : Delimited rest) : readValue (fuel + 1) (v.print ++ rest) = some (v, rest) := by
  have hRead := readNumber_append hv hText hRest
  obtain ⟨c, cs, hPrint, hKind⟩ := print_head hv
  have hNumber : v.kind = .number := by
    cases v with
    | number | fraction => rfl
    | null | bool | string | array | object => cases hText
  rw [hPrint, List.cons_append] at hRead ⊢
  rw [readValue, hKind, hNumber]
  exact hRead

theorem readText_escaped (cs rest : List Char) {fuel : Nat} (hFuel : (cs.flatMap escape).length < fuel) :
    readText fuel (cs.flatMap escape ++ '"' :: rest) = some (cs, rest) := by
  induction cs generalizing fuel with
  | nil =>
    cases fuel with
    | zero => omega
    | succ fuel => rfl
  | cons c cs ih =>
    obtain ⟨x, xs, hEscape, hHead⟩ := escape_head c
    rw [List.flatMap_cons, List.length_append] at hFuel
    have hLength : 0 < (escape c).length := by simp [hEscape]
    cases fuel with
    | zero => omega
    | succ fuel =>
      have hNext : ((c :: cs).flatMap escape ++ '"' :: rest).head? ≠ some '"' := by
        simp [List.flatMap_cons, hEscape, hHead]
      rw [readText, if_neg hNext, List.flatMap_cons, List.append_assoc, unescape_escape, Option.bind_eq_bind, Option.bind_some,
        ih (by omega)]
      rfl

/-! ## The reader inverts the printer -/

/-- The reader takes the print of the value off the front of a text. -/
def IsRead (v : Json) : Prop := ∀ fuel rest, v.Plain → v.print.length ≤ fuel → Delimited rest →
  readValue fuel (v.print ++ rest) = some (v, rest)

theorem print_pos {v : Json} (h : v.Plain) : 0 < v.print.length := by
  obtain ⟨c, cs, hText, _⟩ := print_head h
  simp [hText]

theorem print_head_ne {v : Json} (h : v.Plain) (rest : List Char) : (v.print ++ rest).head? ≠ some ']' := by
  obtain ⟨c, cs, hText, _⟩ := print_head h
  intro hHead
  rw [hText] at hHead
  have hBracket := print_ne_bracket h (cs ++ rest) rest
  rw [hText, ← Option.some.inj hHead] at hBracket
  exact hBracket rfl

theorem readItems_print {items : List Json} (hItems : ∀ item ∈ items, IsRead item) (h : PlainItems items) (rest : List Char)
    {fuel : Nat} (hFuel : (printItems items).length ≤ fuel) : readItems fuel (printItems items ++ rest) = some (items, rest) := by
  induction items generalizing fuel with
  | nil =>
    rw [printItems] at hFuel ⊢
    cases fuel with
    | zero => simp at hFuel
    | succ fuel => rfl
  | cons item items ih =>
    rw [List.forall_mem_cons] at hItems
    rw [PlainItems] at h
    rw [printItems, List.length_cons, List.length_append] at hFuel
    have hPositive := print_pos h.1
    cases fuel with
    | zero => omega
    | succ fuel =>
      rw [printItems, List.cons_append, readItems, if_neg (by simp), List.append_assoc]
      have hComma : expect [','] (',' :: (item.print ++ (printItems items ++ rest))) = some (item.print ++ (printItems items ++ rest)) :=
        expect_append [','] _
      have hItem := hItems.1 fuel (printItems items ++ rest) h.1 (by omega) (delimited_printItems items rest)
      rw [hComma, Option.bind_eq_bind, Option.bind_some, hItem, Option.bind_eq_bind, Option.bind_some, ih hItems.2 h.2 (by omega)]
      rfl

theorem readField_print {key : String} {value : Json} (hValue : IsRead value) (h : value.Plain) {rest : List Char}
    (hRest : Delimited rest) {fuel : Nat} (hFuel : (quote key).toList.length + value.print.length ≤ fuel) :
    readField fuel ((quote key).toList ++ ':' :: (value.print ++ rest)) = some ((key, value), rest) := by
  rw [quote_toList, List.length_cons, List.length_append, List.length_singleton] at hFuel
  cases fuel with
  | zero => omega
  | succ fuel =>
    have hQuote : expect ['"'] ('"' :: (key.toList.flatMap escape ++ '"' :: ':' :: (value.print ++ rest))) =
        some (key.toList.flatMap escape ++ '"' :: ':' :: (value.print ++ rest)) := expect_append ['"'] _
    have hColon : expect [':'] (':' :: (value.print ++ rest)) = some (value.print ++ rest) := expect_append [':'] _
    have hText : (quote key).toList ++ ':' :: (value.print ++ rest) =
        '"' :: (key.toList.flatMap escape ++ '"' :: ':' :: (value.print ++ rest)) := by
      simp [quote_toList]
    rw [hText, readField, hQuote, Option.bind_eq_bind, Option.bind_some, readText_escaped _ _ (by omega), Option.bind_eq_bind,
      Option.bind_some, hColon, Option.bind_eq_bind, Option.bind_some, hValue fuel rest h (by omega) hRest, String.ofList_toList]
    rfl

theorem readFields_print {fields : List (String × Json)} (hFields : ∀ field ∈ fields, IsRead field.2) (h : PlainFields fields)
    (rest : List Char) {fuel : Nat} (hFuel : (printFields fields).length ≤ fuel) :
    readFields fuel (printFields fields ++ rest) = some (fields, rest) := by
  induction fields generalizing fuel with
  | nil =>
    rw [printFields] at hFuel ⊢
    cases fuel with
    | zero => simp at hFuel
    | succ fuel => rfl
  | cons field fields ih =>
    obtain ⟨key, value⟩ := field
    obtain ⟨hValue, hRest⟩ := List.forall_mem_cons.mp hFields
    rw [PlainFields] at h
    have hPlain : value.Plain := h.1
    have hRead : IsRead value := hValue
    rw [printFields, List.length_cons, List.length_append, List.length_cons, List.length_append] at hFuel
    cases fuel with
    | zero => omega
    | succ fuel =>
      have hText : printFields ((key, value) :: fields) ++ rest =
          ',' :: ((quote key).toList ++ ':' :: (value.print ++ (printFields fields ++ rest))) := by
        simp [printFields]
      have hComma : expect [','] (',' :: ((quote key).toList ++ ':' :: (value.print ++ (printFields fields ++ rest)))) =
          some ((quote key).toList ++ ':' :: (value.print ++ (printFields fields ++ rest))) := expect_append [','] _
      have hField : readField fuel ((quote key).toList ++ ':' :: (value.print ++ (printFields fields ++ rest))) =
          some ((key, value), printFields fields ++ rest) :=
        readField_print hRead hPlain (delimited_printFields fields rest) (by omega)
      rw [hText, readFields, if_neg (by simp), hComma, Option.bind_eq_bind, Option.bind_some, hField, Option.bind_eq_bind,
        Option.bind_some, ih hRest h.2 (by omega)]
      rfl

theorem isRead_array {items : List Json} (hItems : ∀ item ∈ items, IsRead item) : IsRead (.array items) := by
  intro fuel rest h hFuel hRest
  rw [Plain] at h
  cases fuel with
  | zero => exact absurd (print_pos (v := .array items) (by rwa [Plain])) (by omega)
  | succ fuel =>
    cases items with
    | nil =>
      rw [print]
      rfl
    | cons item items =>
      rw [List.forall_mem_cons] at hItems
      rw [PlainItems] at h
      rw [print, List.length_cons, List.length_append] at hFuel
      have hBracket : (item.print ++ (printItems items ++ rest)).head? ≠ some ']' := print_head_ne h.1 _
      have hItem := hItems.1 fuel (printItems items ++ rest) h.1 (by omega) (delimited_printItems items rest)
      rw [print, List.cons_append, readValue, show kindOf '[' = .array from rfl, List.append_assoc]
      simp only
      rw [if_neg hBracket, hItem, Option.bind_eq_bind, Option.bind_some, readItems_print hItems.2 h.2 rest (by omega)]
      rfl

theorem isRead_object {fields : List (String × Json)} (hFields : ∀ field ∈ fields, IsRead field.2) : IsRead (.object fields) := by
  intro fuel rest h hFuel hRest
  rw [Plain] at h
  cases fuel with
  | zero => exact absurd (print_pos (v := .object fields) (by rwa [Plain])) (by omega)
  | succ fuel =>
    cases fields with
    | nil =>
      rw [print]
      rfl
    | cons field fields =>
      obtain ⟨key, value⟩ := field
      obtain ⟨hValue, hOthers⟩ := List.forall_mem_cons.mp hFields
      rw [PlainFields] at h
      have hPlain : value.Plain := h.1
      have hRead : IsRead value := hValue
      rw [print, List.length_cons, List.length_append, List.length_cons, List.length_append] at hFuel
      have hText : print (.object ((key, value) :: fields)) ++ rest =
          '\x7b' :: ((quote key).toList ++ ':' :: (value.print ++ (printFields fields ++ rest))) := by
        simp [print]
      have hBrace : ((quote key).toList ++ ':' :: (value.print ++ (printFields fields ++ rest))).head? ≠ some '\x7d' := by
        simp [quote_toList]
      have hField : readField fuel ((quote key).toList ++ ':' :: (value.print ++ (printFields fields ++ rest))) =
          some ((key, value), printFields fields ++ rest) :=
        readField_print hRead hPlain (delimited_printFields fields rest) (by omega)
      rw [hText, readValue, show kindOf '\x7b' = .object from rfl]
      simp only
      rw [if_neg hBrace, hField, Option.bind_eq_bind, Option.bind_some, readFields_print hOthers h.2 rest (by omega)]
      rfl

theorem isRead_scalar {v : Json} (hArray : v.kind ≠ .array) (hObject : v.kind ≠ .object) : IsRead v := by
  intro fuel rest h hFuel hRest
  have hPositive := print_pos h
  cases fuel with
  | zero => omega
  | succ fuel =>
    cases v with
    | null =>
      rw [print]
      exact congrArg (Option.map fun rest => (Json.null, rest)) (expect_append ['u', 'l', 'l'] rest)
    | bool b =>
      cases b with
      | true =>
        rw [print, if_pos rfl]
        exact congrArg (Option.map fun rest => (Json.bool true, rest)) (expect_append ['r', 'u', 'e'] rest)
      | false =>
        rw [print, if_neg Bool.false_ne_true]
        exact congrArg (Option.map fun rest => (Json.bool false, rest)) (expect_append ['a', 'l', 's', 'e'] rest)
    | number z => exact readValue_numeral h rfl hRest
    | fraction text => exact readValue_numeral h rfl hRest
    | string s =>
      have hText : print (.string s) ++ rest = '"' :: (s.toList.flatMap escape ++ '"' :: rest) := by
        simp [print, quote_toList]
      rw [print, quote_toList, List.length_cons, List.length_append, List.length_singleton] at hFuel
      rw [hText, readValue, show kindOf '"' = .string from rfl]
      simp only
      rw [readText_escaped _ _ (by omega), Option.map_some, String.ofList_toList]
    | array items => exact absurd rfl hArray
    | object fields => exact absurd rfl hObject

theorem isRead (v : Json) : IsRead v := by
  induction v using Json.induction with
  | array items hItems => exact isRead_array hItems
  | object fields hFields => exact isRead_object hFields
  | null => exact isRead_scalar (by simp [kind]) (by simp [kind])
  | bool b => cases b <;> exact isRead_scalar (by simp [kind]) (by simp [kind])
  | number z => exact isRead_scalar (by simp [kind]) (by simp [kind])
  | fraction text => exact isRead_scalar (by simp [kind]) (by simp [kind])
  | string s => exact isRead_scalar (by simp [kind]) (by simp [kind])

theorem parse_print {v : Json} (h : v.Plain) : parse v.print = some v := by
  have hRead := isRead v v.print.length [] h (Nat.le_refl _) trivial
  rw [List.append_nil] at hRead
  rw [parse, hRead, Option.bind_some, if_pos rfl]

/-! ## Lines -/

theorem kind_ne_other (v : Json) : v.kind ≠ .other := by
  cases v with
  | bool b => cases b <;> simp [kind]
  | null | number | fraction | string | array | object => simp [kind]

theorem kindOf_space {c : Char} (h : isSpace c = true) : kindOf c = .other := by
  have hSpaces : (whitespace.all fun c => decide (kindOf c = .other)) = true := by decide
  rw [isSpace, List.contains_iff_mem] at h
  exact of_decide_eq_true (List.all_eq_true.mp hSpaces c h)

theorem trimList_print_ne_nil {v : Json} (h : v.Plain) : trimList v.print ≠ [] := by
  obtain ⟨c, cs, hText, hKind⟩ := print_head h
  intro hBlank
  obtain ⟨before, after, hContext, hBefore, hAfter⟩ := trimList_context v.print
  rw [hBlank, List.append_nil] at hContext
  have hMem : c ∈ before ++ after := by
    rw [← hContext, hText]
    exact List.mem_cons_self
  have hSpace : isSpace c = true := (List.mem_append.mp hMem).elim (hBefore c) (hAfter c)
  exact kind_ne_other v (hKind.symm.trans (kindOf_space hSpace))

theorem newline_not_mem_escape (c : Char) : '\n' ∉ escape c := by
  have hDigit : ∀ n, hexDigit n ≠ '\n' := by
    intro n
    by_cases hn : n < 16
    · have hAll : ((List.range 16).all fun n => hexDigit n != '\n') = true := by decide
      simpa using List.all_eq_true.mp hAll n (List.mem_range.mpr hn)
    · have hLong : "0123456789abcdef".toList.length ≤ n := by
        have hLength : "0123456789abcdef".toList.length = 16 := by decide
        omega
      rw [hexDigit, List.getD_eq_getElem?_getD, List.getElem?_eq_none hLong]
      decide
  rw [escape]
  split_ifs with hQuote hSlash hBack hForm hLine
  all_goals simp [(hDigit _).symm]
  rintro rfl
  exact hLine rfl

theorem newline_not_mem_quote (s : String) : '\n' ∉ (quote s).toList := by
  rw [quote_toList]
  intro h
  rcases List.mem_cons.mp h with hHead | hTail
  · cases hHead
  · rcases List.mem_append.mp hTail with hChars | hEnd
    · obtain ⟨c, _, hEscape⟩ := List.mem_flatMap.mp hChars
      exact newline_not_mem_escape c hEscape
    · simp at hEnd

theorem newline_not_mem_print {v : Json} (h : v.Plain) : '\n' ∉ v.print := by
  have hNumber : ∀ {word : List Char}, (∀ c ∈ word, isNumberChar c = true) → '\n' ∉ word :=
    fun hChars hMem => absurd (hChars _ hMem) (by decide)
  induction v using Json.induction with
  | null => simp [print]
  | bool b => cases b <;> simp [print]
  | number z =>
    rw [print]
    exact hNumber (toString_chars z).2
  | fraction text =>
    rw [Plain] at h
    rw [print]
    exact hNumber (isFraction_chars h).2.1
  | string s =>
    rw [print]
    exact newline_not_mem_quote s
  | array items hItems =>
    rw [Plain] at h
    have hRest : ∀ rest : List Json, (∀ item ∈ rest, item.Plain → '\n' ∉ item.print) → PlainItems rest → '\n' ∉ printItems rest := by
      intro rest hRest hPlain
      induction rest with
      | nil => simp [printItems]
      | cons item rest ih =>
        rw [PlainItems] at hPlain
        rw [List.forall_mem_cons] at hRest
        simp [printItems, hRest.1 hPlain.1, ih hRest.2 hPlain.2]
    cases items with
    | nil => simp [print]
    | cons item rest =>
      rw [PlainItems] at h
      rw [List.forall_mem_cons] at hItems
      simp [print, hItems.1 h.1, hRest rest hItems.2 h.2]
  | object fields hFields =>
    rw [Plain] at h
    have hRest : ∀ rest : List (String × Json), (∀ field ∈ rest, field.2.Plain → '\n' ∉ field.2.print) → PlainFields rest →
        '\n' ∉ printFields rest := by
      intro rest hRest hPlain
      induction rest with
      | nil => simp [printFields]
      | cons field rest ih =>
        obtain ⟨key, value⟩ := field
        rw [PlainFields] at hPlain
        obtain ⟨hValue, hOthers⟩ := List.forall_mem_cons.mp hRest
        have hLine : '\n' ∉ value.print := hValue hPlain.1
        simp [printFields, newline_not_mem_quote, hLine, ih hOthers hPlain.2]
    cases fields with
    | nil => simp [print]
    | cons field rest =>
      obtain ⟨key, value⟩ := field
      rw [PlainFields] at h
      obtain ⟨hValue, hOthers⟩ := List.forall_mem_cons.mp hFields
      have hLine : '\n' ∉ value.print := hValue h.1
      simp [print, newline_not_mem_quote, hLine, hRest rest hOthers h.2]

end Js.Json
