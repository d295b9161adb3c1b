import GhostApi.Js.Induction
import Mathlib.Data.List.Forall2
import Mathlib.Data.Nat.Digits.Defs

/-!
# Bytes of a pretty-printed value

Upper bounds for the UTF-8 size of what JSON.stringify(value, null, 2) prints,
member by member.
-/

namespace Js.Json

theorem utf8ByteSize_ofList (cs : List Char) :
    (String.ofList cs).utf8ByteSize = (cs.map Char.utf8Size).sum := by
  induction cs with
  | nil => rfl
  | cons c cs ih =>
    rw [String.ofList_cons, String.utf8ByteSize_append, ih, String.utf8ByteSize_singleton]
    rfl

theorem utf8ByteSize_ofList_le (cs : List Char) : (String.ofList cs).utf8ByteSize ≤ 4 * cs.length := by
  rw [utf8ByteSize_ofList]
  induction cs with
  | nil => exact Nat.le_refl _
  | cons c cs ih =>
    have hHead := Char.utf8Size_le_four c
    rw [List.map_cons, List.sum_cons, List.length_cons]
    omega

theorem length_escape {c : Char} (h : isControl c = false) : (escape c).length ≤ 2 := by
  simp only [escape, h, Bool.false_eq_true, if_false]
  split_ifs <;> simp

theorem escape_size {c : Char} (h : isControl c = false) :
    ((escape c).map Char.utf8Size).sum ≤ 8 := by
  have hLength := length_escape h
  have hBytes := utf8ByteSize_ofList_le (escape c)
  rw [utf8ByteSize_ofList] at hBytes
  omega

theorem quote_size_eq (s : String) : (quote s).utf8ByteSize = ((s.toList.flatMap escape).map Char.utf8Size).sum + 2 := by
  have hMark : "\"".utf8ByteSize = 1 := by decide
  rw [quote, String.utf8ByteSize_append, String.utf8ByteSize_append, utf8ByteSize_ofList (s.toList.flatMap escape), hMark]
  omega

theorem quote_size {s : String} (h : ∀ c ∈ s.toList, isControl c = false) :
    (quote s).utf8ByteSize ≤ 8 * s.toList.length + 2 := by
  have hChars : ∀ cs : List Char, (∀ c ∈ cs, isControl c = false) →
      ((cs.flatMap escape).map Char.utf8Size).sum ≤ 8 * cs.length := by
    intro cs
    induction cs with
    | nil => simp
    | cons c cs ih =>
      intro hAll
      rw [List.forall_mem_cons] at hAll
      have hHead := escape_size hAll.1
      have hTail := ih hAll.2
      rw [List.flatMap_cons, List.map_append, List.sum_append, List.length_cons]
      omega
  rw [quote_size_eq]
  exact Nat.add_le_add_right (hChars s.toList h) 2

theorem quote_size_plain {s : String} (h : ∀ c ∈ s.toList, escape c = [c] ∧ c.utf8Size = 1) :
    (quote s).utf8ByteSize = s.toList.length + 2 := by
  have hChars : ∀ cs : List Char, (∀ c ∈ cs, escape c = [c] ∧ c.utf8Size = 1) →
      ((cs.flatMap escape).map Char.utf8Size).sum = cs.length := by
    intro cs
    induction cs with
    | nil => simp
    | cons c cs ih =>
      intro hAll
      rw [List.forall_mem_cons] at hAll
      obtain ⟨⟨hEscape, hSize⟩, hAll⟩ := hAll
      rw [List.flatMap_cons, hEscape, List.singleton_append, List.map_cons, List.sum_cons, hSize, ih hAll,
        List.length_cons, Nat.add_comm]
  rw [quote_size_eq, hChars s.toList h]

theorem number_size {n e : Nat} (hPos : 0 < e) (h : n < 10 ^ e) (depth : Nat) :
    (pretty depth (.number n)).utf8ByteSize ≤ 4 * e := by
  have hText : pretty depth (.number n) = n.repr := rfl
  have hLength := (Nat.length_repr_le_iff hPos).mpr h
  have hBytes := utf8ByteSize_ofList_le n.repr.toList
  rw [String.ofList_toList, String.length_toList] at hBytes
  rw [hText]
  omega

theorem join_size_eq (separator : String) {parts : List String} (h : parts ≠ []) :
    (join separator parts).utf8ByteSize + separator.utf8ByteSize =
      (parts.map fun part => part.utf8ByteSize + separator.utf8ByteSize).sum := by
  induction parts with
  | nil => exact absurd rfl h
  | cons part parts ih =>
    rw [List.map_cons, List.sum_cons]
    cases parts with
    | nil => simp [join]
    | cons next rest =>
      have hRest := ih (List.cons_ne_nil next rest)
      rw [join] at hRest ⊢
      rw [String.intercalate_cons_of_ne_nil (List.cons_ne_nil next rest), String.utf8ByteSize_append,
        String.utf8ByteSize_append]
      omega

theorem join_size (separator : String) (parts : List String) : (join separator parts).utf8ByteSize ≤
    (parts.map fun part => part.utf8ByteSize + separator.utf8ByteSize).sum := by
  cases parts with
  | nil => exact Nat.le_refl _
  | cons part parts =>
    rw [← join_size_eq separator (List.cons_ne_nil part parts)]
    exact Nat.le_add_right _ _

theorem indentText_size (depth : Nat) : (indentText depth).utf8ByteSize = 2 * depth := by
  have hSpaces : ∀ n, ((List.replicate n ' ').map Char.utf8Size).sum = n := by
    intro n
    induction n with
    | zero => rfl
    | succ n ih =>
      rw [List.replicate_succ, List.map_cons, List.sum_cons, ih, Nat.add_comm]
      rfl
  rw [indentText, utf8ByteSize_ofList, hSpaces]

def sizes (depth : Nat) (values : List Json) : Nat := (values.map fun value => (pretty depth value).utf8ByteSize).sum

theorem sizes_cons (depth : Nat) (value : Json) (values : List Json) :
    sizes depth (value :: values) = (pretty depth value).utf8ByteSize + sizes depth values := rfl

/-- Bytes of the members of an object, each on a line of its own. -/
def lineSizes (depth : Nat) (fields : List (String × Json)) : Nat :=
  (fields.map fun field => 2 * depth + 6 + (quote field.1).utf8ByteSize + (pretty (depth + 1) field.2).utf8ByteSize).sum

theorem lineSizes_cons (depth : Nat) (name : String) (value : Json) (fields : List (String × Json)) :
    lineSizes depth ((name, value) :: fields) =
      2 * depth + 6 + (quote name).utf8ByteSize + (pretty (depth + 1) value).utf8ByteSize + lineSizes depth fields := rfl

theorem prettyItems_size (depth : Nat) (items : List Json) :
    ((prettyItems depth items).map fun part => part.utf8ByteSize + ",\n".utf8ByteSize).sum =
      items.length * (2 * depth + 2) + sizes depth items := by
  have hComma : ",\n".utf8ByteSize = 2 := by decide
  induction items with
  | nil => simp [prettyItems, sizes]
  | cons item items ih =>
    rw [prettyItems, List.map_cons, List.sum_cons, ih, String.utf8ByteSize_append, indentText_size, List.length_cons,
      Nat.succ_mul items.length, sizes_cons]
    omega

theorem array_size (depth : Nat) (items : List Json) : (pretty depth (.array items)).utf8ByteSize ≤
    4 + 2 * depth + items.length * (2 * depth + 4) + sizes (depth + 1) items := by
  cases items with
  | nil =>
    have hEmpty : (pretty depth (.array [])).utf8ByteSize = 2 := by rw [pretty]; decide
    omega
  | cons item rest =>
    have hIndent := indentText_size depth
    have hJoin := (join_size ",\n" _).trans_eq (prettyItems_size (depth + 1) (item :: rest))
    have hOpen : "[\n".utf8ByteSize = 2 := by decide
    have hLine : "\n".utf8ByteSize = 1 := by decide
    have hClose : "]".utf8ByteSize = 1 := by decide
    rw [show 2 * (depth + 1) + 2 = 2 * depth + 4 by omega] at hJoin
    rw [pretty]
    repeat rw [String.utf8ByteSize_append]
    omega

theorem object_size (depth : Nat) (fields : List (String × Json)) :
    (pretty depth (.object fields)).utf8ByteSize ≤ 4 + 2 * depth + lineSizes depth fields := by
  have hFields : ∀ fields : List (String × Json),
      ((prettyFields (depth + 1) fields).map fun part => part.utf8ByteSize + ",\n".utf8ByteSize).sum =
        lineSizes depth fields := by
    intro fields
    have hComma : ",\n".utf8ByteSize = 2 := by decide
    have hColon : ": ".utf8ByteSize = 2 := by decide
    induction fields with
    | nil => simp [prettyFields, lineSizes]
    | cons field fields ih =>
      obtain ⟨name, value⟩ := field
      rw [prettyFields, List.map_cons, List.sum_cons, ih, lineSizes_cons]
      repeat rw [String.utf8ByteSize_append]
      rw [indentText_size]
      omega
  cases fields with
  | nil =>
    have hEmpty : (pretty depth (.object [])).utf8ByteSize = 2 := by rw [pretty]; decide
    omega
  | cons field rest =>
    have hIndent := indentText_size depth
    have hJoin := (join_size ",\n" _).trans_eq (hFields (field :: rest))
    have hOpen : "\x7b\n".utf8ByteSize = 2 := by decide
    have hLine : "\n".utf8ByteSize = 1 := by decide
    have hClose : "\x7d".utf8ByteSize = 1 := by decide
    rw [pretty]
    repeat rw [String.utf8ByteSize_append]
    omega

theorem lineSizes_le {depth key : Nat} {fields : List (String × Json)}
    (hKeys : ∀ name ∈ fields.map Prod.fst, (quote name).utf8ByteSize ≤ key) :
    lineSizes depth fields ≤ fields.length * (2 * depth + 6 + key) + sizes (depth + 1) (fields.map Prod.snd) := by
  induction fields with
  | nil => simp [lineSizes]
  | cons field fields ih =>
    obtain ⟨name, value⟩ := field
    rw [List.map_cons, List.forall_mem_cons] at hKeys
    have hHead : (quote name).utf8ByteSize ≤ key := hKeys.1
    have hTail := ih hKeys.2
    rw [lineSizes_cons, List.length_cons, Nat.succ_mul fields.length, List.map_cons, sizes_cons]
    dsimp only
    omega

def plainName (name : String) : Bool := name.toList.all (!isControl ·) && name.toList.length ≤ 30

theorem plainName_size {name : String} (h : plainName name = true) : (quote name).utf8ByteSize ≤ 242 := by
  rw [plainName, Bool.and_eq_true, List.all_eq_true, decide_eq_true_eq] at h
  have hQuote := quote_size fun c hc => by simpa using h.1 c hc
  omega

/-- A value printed at a depth within a number of bytes. -/
def Within (depth bound : Nat) (value : Json) : Prop := (pretty depth value).utf8ByteSize ≤ bound

theorem Within.mono {depth bound bound' : Nat} {value : Json} (h : Within depth bound value)
    (hBound : bound ≤ bound') : Within depth bound' value := Nat.le_trans h hBound

def margin (depth : Nat) : Nat := 8 * depth + 254

theorem margin_le {depth : Nat} (h : depth ≤ 4) : margin depth ≤ 286 := by
  rw [margin]
  omega

/-- Members printed within a number of bytes, name by name. -/
inductive Members (depth : Nat) : Nat → List (String × Json) → Prop
  | nil : Members depth 0 []
  | cons {name : String} {value : Json} {bound total : Nat} {fields : List (String × Json)}
      (named : plainName name = true) (valued : Within (depth + 1) bound value) (rest : Members depth total fields) :
      Members depth (total + (bound + margin depth)) ((name, value) :: fields)

theorem Members.append {depth total total' : Nat} {fields fields' : List (String × Json)}
    (h : Members depth total fields) (h' : Members depth total' fields') :
    Members depth (total + total') (fields ++ fields') := by
  induction h with
  | nil => rwa [Nat.zero_add]
  | @cons name value bound total fields named valued rest ih =>
    have hCons := Members.cons named valued ih
    rwa [Nat.add_right_comm] at hCons

theorem Members.names {depth total : Nat} {fields : List (String × Json)} (h : Members depth total fields) :
    ∀ name ∈ fields.map Prod.fst, plainName name = true := by
  induction h with
  | nil => simp
  | cons named _ _ ih => exact List.forall_mem_cons.mpr ⟨named, ih⟩

theorem Members.total {depth total : Nat} {fields : List (String × Json)} (h : Members depth total fields) :
    fields.length * margin depth + sizes (depth + 1) (fields.map Prod.snd) ≤ total := by
  induction h with
  | nil => simp [sizes]
  | @cons name value bound total fields _ valued _ ih =>
    rw [Within] at valued
    rw [List.map_cons, sizes_cons, List.length_cons, Nat.succ_mul]
    generalize (pretty (depth + 1) value).utf8ByteSize = size at valued ⊢
    generalize sizes (depth + 1) (fields.map Prod.snd) = rest at ih ⊢
    generalize fields.length * margin depth = names at ih ⊢
    generalize margin depth = unit
    omega

theorem record_within {depth total : Nat} {fields : List (String × Json)} (h : Members depth total fields) :
    Within depth (4 + 8 * depth + total) (.object fields) := by
  have hObject := object_size depth fields
  have hLines := @lineSizes_le depth 242 fields fun name hName => plainName_size (h.names name hName)
  have hTotal := h.total
  have hMargin : fields.length * (2 * depth + 6 + 242) ≤ fields.length * margin depth := by
    refine Nat.mul_le_mul_left _ ?_
    rw [margin]
    omega
  rw [Within]
  omega

theorem sizes_le {depth bound : Nat} {values : List Json} (h : ∀ value ∈ values, Within depth bound value) :
    sizes depth values ≤ values.length * bound := by
  induction values with
  | nil => exact Nat.zero_le _
  | cons value values ih =>
    rw [List.forall_mem_cons] at h
    have hHead := h.1
    have hTail := ih h.2
    rw [Within] at hHead
    rw [sizes_cons, List.length_cons, Nat.succ_mul]
    omega

theorem array_within {depth bound : Nat} {items : List Json} (h : ∀ item ∈ items, Within (depth + 1) bound item) :
    Within depth (4 + 8 * depth + items.length * (8 * depth + 10 + bound)) (.array items) := by
  have hSizes := sizes_le h
  have hArray := array_size depth items
  have hLines : items.length * (2 * depth + 4) ≤ items.length * (8 * depth + 10) :=
    Nat.mul_le_mul_left _ (by omega)
  rw [Within, Nat.mul_add]
  omega

/-! ## A bound that is computed -/

def quoteWeight (s : String) : Nat := 6 * s.utf8ByteSize + 2

mutual
/-- At least the bytes of what a value prints, counted without printing it. -/
def weight (depth : Nat) : Json → Nat
  | .null => 4
  | .bool _ => 5
  | .number z => 4 * z.natAbs.log2 + 5
  | .fraction text => text.utf8ByteSize
  | .string s => quoteWeight s
  | .array items => 4 + 2 * depth + itemsWeight (depth + 1) items
  | .object fields => 4 + 2 * depth + fieldsWeight depth fields

def itemsWeight (depth : Nat) : List Json → Nat
  | [] => 0
  | item :: rest => 2 * depth + 2 + weight depth item + itemsWeight depth rest

def fieldsWeight (depth : Nat) : List (String × Json) → Nat
  | [] => 0
  | (key, value) :: rest => 2 * depth + 6 + quoteWeight key + weight (depth + 1) value + fieldsWeight depth rest
end

theorem fieldsWeight_append (depth : Nat) (fields others : List (String × Json)) :
    fieldsWeight depth (fields ++ others) = fieldsWeight depth fields + fieldsWeight depth others := by
  induction fields with
  | nil => simp [fieldsWeight]
  | cons field fields ih =>
    obtain ⟨key, value⟩ := field
    simp only [List.cons_append, fieldsWeight, ih]
    omega

theorem itemsWeight_congr {α : Type} {depth : Nat} {toJson other : α → Json} (items : List α)
    (h : ∀ item, weight depth (toJson item) = weight depth (other item)) :
    itemsWeight depth (items.map toJson) = itemsWeight depth (items.map other) := by
  induction items with
  | nil => rfl
  | cons item items ih => rw [List.map_cons, List.map_cons, itemsWeight, itemsWeight, h, ih]

theorem escape_size_le (c : Char) : ((escape c).map Char.utf8Size).sum ≤ 6 * c.utf8Size := by
  have hOne := Char.utf8Size_pos c
  have hAll : ("0123456789abcdef".toList.all fun d => decide (d.utf8Size = 1)) = true := by decide
  have hHex : ∀ n, (hexDigit n).utf8Size = 1 := by
    intro n
    rw [hexDigit, List.getD_eq_getElem?_getD]
    cases h : "0123456789abcdef".toList[n]? with
    | none => decide
    | some d => exact of_decide_eq_true (List.all_eq_true.mp hAll d (List.mem_of_getElem? h))
  have hMarks : '"'.utf8Size = 1 ∧ '\\'.utf8Size = 1 ∧ 'b'.utf8Size = 1 ∧ 'f'.utf8Size = 1 ∧ 'n'.utf8Size = 1 ∧ 'r'.utf8Size = 1 ∧
      't'.utf8Size = 1 ∧ 'u'.utf8Size = 1 ∧ '0'.utf8Size = 1 := by decide
  obtain ⟨h1, h2, h3, h4, h5, h6, h7, h8, h9⟩ := hMarks
  rw [escape]
  split_ifs <;> simp only [List.map_cons, List.map_nil, List.sum_cons, List.sum_nil, hHex, h1, h2, h3, h4, h5, h6, h7, h8, h9] <;>
    omega

theorem quote_le_quoteWeight (s : String) : (quote s).utf8ByteSize ≤ quoteWeight s := by
  have hChars : ∀ cs : List Char, ((cs.flatMap escape).map Char.utf8Size).sum ≤ 6 * (cs.map Char.utf8Size).sum := by
    intro cs
    induction cs with
    | nil => exact Nat.le_refl _
    | cons c cs ih =>
      have hHead := escape_size_le c
      rw [List.flatMap_cons, List.map_append, List.sum_append, List.map_cons, List.sum_cons]
      omega
  have hText := utf8ByteSize_ofList s.toList
  rw [String.ofList_toList] at hText
  rw [quote_size_eq, quoteWeight, hText]
  exact Nat.add_le_add_right (hChars s.toList) 2

theorem repr_size_le (n : Nat) : n.repr.utf8ByteSize ≤ 4 * n.log2 + 4 := by
  have hPow : n < 10 ^ (n.log2 + 1) := Nat.lt_log2_self.trans_le (Nat.pow_le_pow_left (by decide) _)
  have hSize : (pretty 0 (.number n)).utf8ByteSize ≤ 4 * (n.log2 + 1) := number_size (Nat.succ_pos _) hPow 0
  rw [show pretty 0 (.number n) = n.repr from rfl] at hSize
  omega

theorem toString_size_le (z : Int) : (toString z).utf8ByteSize ≤ 4 * z.natAbs.log2 + 5 := by
  cases z with
  | ofNat n =>
    exact (repr_size_le n).trans (Nat.le_succ _)
  | negSucc n =>
    have hRepr := repr_size_le (n + 1)
    have hSign : "-".utf8ByteSize = 1 := by decide
    rw [show toString (Int.negSucc n) = "-" ++ (n + 1).repr from rfl, String.utf8ByteSize_append, Int.natAbs_negSucc,
      Nat.succ_eq_add_one]
    omega

theorem within_weight (value : Json) : ∀ depth, Within depth (weight depth value) value := by
  induction value using Json.induction with
  | null => exact fun _ => by rw [Within, pretty, weight]; decide
  | bool b => exact fun _ => by rw [Within, pretty, weight]; cases b <;> decide
  | number z => exact fun _ => by rw [Within, pretty, weight]; exact toString_size_le z
  | fraction text => exact fun _ => by rw [Within, pretty, weight]
  | string s => exact fun _ => by rw [Within, pretty, weight]; exact quote_le_quoteWeight s
  | array items ih =>
    intro depth
    have hItems : items.length * (2 * depth + 4) + sizes (depth + 1) items ≤ itemsWeight (depth + 1) items := by
      induction items with
      | nil => simp [sizes]
      | cons item items ihItems =>
        rw [List.forall_mem_cons] at ih
        have hHead := ih.1 (depth + 1)
        have hTail := ihItems ih.2
        rw [Within] at hHead
        rw [List.length_cons, Nat.succ_mul, sizes_cons, itemsWeight]
        omega
    have hArray := array_size depth items
    rw [Within, weight]
    omega
  | object fields ih =>
    intro depth
    have hFields : lineSizes depth fields ≤ fieldsWeight depth fields := by
      induction fields with
      | nil => simp [lineSizes]
      | cons field fields ihFields =>
        obtain ⟨key, value⟩ := field
        rw [List.forall_mem_cons] at ih
        have hHead := ih.1 (depth + 1)
        have hTail := ihFields ih.2
        have hKey := quote_le_quoteWeight key
        rw [Within] at hHead
        dsimp only at hHead
        rw [lineSizes_cons, fieldsWeight]
        omega
    have hObject := object_size depth fields
    rw [Within, weight]
    omega

/-! ## Values of one size -/

/-- Two values printed at a depth in the same number of bytes. -/
def SameSize (depth : Nat) (value value' : Json) : Prop :=
  (pretty depth value).utf8ByteSize = (pretty depth value').utf8ByteSize

theorem prettyItems_ne_nil (depth : Nat) {items : List Json} (h : items ≠ []) : prettyItems depth items ≠ [] := by
  cases items with
  | nil => exact absurd rfl h
  | cons item items =>
    rw [prettyItems]
    exact List.cons_ne_nil _ _

theorem array_sameSize {depth : Nat} {items items' : List Json} (hLength : items.length = items'.length)
    (hSizes : sizes (depth + 1) items = sizes (depth + 1) items') : SameSize depth (.array items) (.array items') := by
  cases items with
  | nil =>
    cases items' with
    | nil => rfl
    | cons item' rest' => cases hLength
  | cons item rest =>
    cases items' with
    | nil => cases hLength
    | cons item' rest' =>
      have hJoin := join_size_eq ",\n" (prettyItems_ne_nil (depth + 1) (List.cons_ne_nil item rest))
      have hJoin' := join_size_eq ",\n" (prettyItems_ne_nil (depth + 1) (List.cons_ne_nil item' rest'))
      rw [prettyItems_size, hLength, hSizes] at hJoin
      rw [prettyItems_size, ← hJoin] at hJoin'
      rw [SameSize, pretty, pretty]
      simp only [String.utf8ByteSize_append]
      omega

theorem prettyFields_map_size (depth : Nat) {fields fields' : List (String × Json)}
    (h : List.Forall₂ (fun field field' => field.1 = field'.1 ∧ SameSize depth field.2 field'.2) fields fields') :
    (prettyFields depth fields).map String.utf8ByteSize = (prettyFields depth fields').map String.utf8ByteSize := by
  induction h with
  | nil => rfl
  | @cons field field' fields fields' hField _ ih =>
    obtain ⟨hName, hSize⟩ := hField
    obtain ⟨name, value⟩ := field
    obtain ⟨name', value'⟩ := field'
    dsimp only at hName hSize
    rw [SameSize] at hSize
    subst hName
    rw [prettyFields, prettyFields, List.map_cons, List.map_cons, ih]
    simp only [String.utf8ByteSize_append, hSize]

theorem object_sameSize {depth : Nat} {fields fields' : List (String × Json)}
    (h : List.Forall₂ (fun field field' => field.1 = field'.1 ∧ SameSize (depth + 1) field.2 field'.2) fields fields') :
    SameSize depth (.object fields) (.object fields') := by
  have hParts := prettyFields_map_size (depth + 1) h
  cases h with
  | nil => rfl
  | @cons field field' rest rest' hField hRest =>
    have hJoin : ∀ parts parts' : List String, parts.map String.utf8ByteSize = parts'.map String.utf8ByteSize →
        parts ≠ [] → (join ",\n" parts).utf8ByteSize = (join ",\n" parts').utf8ByteSize := by
      intro parts parts' hSame hSome
      have hSome' : parts' ≠ [] := by
        rintro rfl
        exact hSome (List.map_eq_nil_iff.mp hSame)
      have hSize := join_size_eq ",\n" hSome
      have hSize' := join_size_eq ",\n" hSome'
      have hSum : ∀ parts : List String, (parts.map fun part => part.utf8ByteSize + ",\n".utf8ByteSize) =
          (parts.map String.utf8ByteSize).map (· + ",\n".utf8ByteSize) := fun parts => by
        rw [List.map_map]
        rfl
      rw [hSum, hSame, ← hSum, ← hSize'] at hSize
      omega
    have hNonempty : prettyFields (depth + 1) (field :: rest) ≠ [] := by
      obtain ⟨name, value⟩ := field
      rw [prettyFields]
      exact List.cons_ne_nil _ _
    rw [SameSize, pretty, pretty]
    simp only [String.utf8ByteSize_append, hJoin _ _ hParts hNonempty]

end Js.Json
