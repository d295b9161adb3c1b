import Mathlib.Data.List.Basic

/-!
# Printed trees

Trees of atoms, texts, arrays and objects are printed with brackets, commas
and colons. When the quoting of a text tells where the text ends, the print of
a tree tells the tree and where it ends.
-/

namespace Printed

inductive JsonTree (σ : Type*)
  | atom (word : List Char)
  | text (s : σ)
  | array (items : List (JsonTree σ))
  | object (fields : List (σ × JsonTree σ))

variable {σ : Type*}

def marks : List Char := ['"', '[', ']', '\x7b', '\x7d', ',', ':']

def isAtomChar (c : Char) : Bool := !marks.contains c

section Printing

variable (quote : σ → List Char)

def comma {α : Type*} : List α → List Char
  | [] => []
  | _ :: _ => [',']

mutual
def print : JsonTree σ → List Char
  | .atom word => word
  | .text s => quote s
  | .array items => '[' :: printItems items
  | .object fields => '\x7b' :: printFields fields

def printItems : List (JsonTree σ) → List Char
  | [] => [']']
  | item :: rest => print item ++ (comma rest ++ printItems rest)

def printFields : List (σ × JsonTree σ) → List Char
  | [] => ['\x7d']
  | (key, value) :: rest => quote key ++ ':' :: (print value ++ (comma rest ++ printFields rest))
end

end Printing

/-- The words of the atoms are not empty and have no marks. -/
inductive JsonTree.Valid : JsonTree σ → Prop
  | atom {word : List Char} (nonempty : word ≠ []) (chars : ∀ c ∈ word, isAtomChar c = true) : Valid (.atom word)
  | text (s : σ) : Valid (.text s)
  | array {items : List (JsonTree σ)} (h : ∀ item ∈ items, Valid item) : Valid (.array items)
  | object {fields : List (σ × JsonTree σ)} (h : ∀ field ∈ fields, Valid field.2) : Valid (.object fields)

def Delimited : List Char → Prop
  | [] => True
  | c :: _ => isAtomChar c = false

/-- A quoted text starts with a quotation mark and tells where it ends. -/
structure Quotes (quote : σ → List Char) : Prop where
  head : ∀ s, ∃ cs, quote s = '"' :: cs
  append_inj : ∀ s t xs ys, quote s ++ xs = quote t ++ ys → s = t ∧ xs = ys

theorem word_append_inj {word other xs ys : List Char} (hWord : ∀ c ∈ word, isAtomChar c = true)
    (hOther : ∀ c ∈ other, isAtomChar c = true) (hx : Delimited xs) (hy : Delimited ys) (h : word ++ xs = other ++ ys) :
    word = other ∧ xs = ys := by
  induction word generalizing other with
  | nil =>
    cases other with
    | nil => exact ⟨rfl, h⟩
    | cons d other =>
      rw [show xs = d :: (other ++ ys) from h, Delimited, hOther d List.mem_cons_self] at hx
      cases hx
  | cons c word ih =>
    cases other with
    | nil =>
      rw [← show c :: (word ++ xs) = ys from h, Delimited, hWord c List.mem_cons_self] at hy
      cases hy
    | cons d other =>
      obtain ⟨rfl, hTail⟩ := List.cons.inj h
      rw [List.forall_mem_cons] at hWord hOther
      obtain ⟨rfl, hRest⟩ := ih hWord.2 hOther.2 hTail
      exact ⟨rfl, hRest⟩

section Reading

variable {quote : σ → List Char}

/-- The kind of a tree, as its first character tells it. -/
def JsonTree.mark : JsonTree σ → Option Char
  | .atom _ => none
  | .text _ => some '"'
  | .array _ => some '['
  | .object _ => some '\x7b'

def markOf (c : Char) : Option Char := if isAtomChar c then none else some c

theorem print_head (hQuotes : Quotes quote) {tree : JsonTree σ} (h : tree.Valid) :
    ∃ c cs, print quote tree = c :: cs ∧ markOf c = tree.mark := by
  cases h with
  | atom nonempty chars =>
    obtain ⟨c, cs, rfl⟩ := List.exists_cons_of_ne_nil nonempty
    exact ⟨c, cs, by rw [print], if_pos (chars c List.mem_cons_self)⟩
  | text s =>
    obtain ⟨cs, hHead⟩ := hQuotes.head s
    exact ⟨'"', cs, by rw [print, hHead], rfl⟩
  | array _ => exact ⟨'[', _, by rw [print], rfl⟩
  | object _ => exact ⟨'\x7b', _, by rw [print], rfl⟩

theorem mark_eq_of_print (hQuotes : Quotes quote) {tree other : JsonTree σ} {xs ys : List Char} (hTree : tree.Valid)
    (hOther : other.Valid) (h : print quote tree ++ xs = print quote other ++ ys) : tree.mark = other.mark := by
  obtain ⟨c, cs, hText, hMark⟩ := print_head hQuotes hTree
  obtain ⟨d, ds, hText', hMark'⟩ := print_head hQuotes hOther
  rw [hText, hText'] at h
  rw [← hMark, ← hMark', (List.cons.inj h).1]

theorem print_ne_mark (hQuotes : Quotes quote) {tree : JsonTree σ} (h : tree.Valid) {c : Char} (hMark : c = ']' ∨ c = ',')
    (xs ys : List Char) : c :: xs ≠ print quote tree ++ ys := by
  obtain ⟨d, ds, hText, hHead⟩ := print_head hQuotes h
  intro hSame
  rw [hText] at hSame
  rw [← (List.cons.inj hSame).1] at hHead
  obtain rfl | rfl := hMark
  · cases h <;> cases hHead
  · cases h <;> cases hHead

theorem delimited_printItems (rest : List (JsonTree σ)) (xs : List Char) : Delimited (comma rest ++ printItems quote rest ++ xs) := by
  cases rest with
  | nil =>
    rw [printItems]
    exact rfl
  | cons item rest => exact rfl

theorem delimited_printFields (rest : List (σ × JsonTree σ)) (xs : List Char) :
    Delimited (comma rest ++ printFields quote rest ++ xs) := by
  cases rest with
  | nil =>
    rw [printFields]
    exact rfl
  | cons field rest => exact rfl

/-- Trees like this one are read off the front of a text. -/
def Readable (quote : σ → List Char) (tree : JsonTree σ) : Prop := ∀ other xs ys, tree.Valid → other.Valid → Delimited xs →
  Delimited ys → print quote tree ++ xs = print quote other ++ ys → tree = other ∧ xs = ys

theorem printItems_append_inj (hQuotes : Quotes quote) {items others : List (JsonTree σ)} {xs ys : List Char}
    (hItems : ∀ item ∈ items, Readable quote item) (hValid : ∀ item ∈ items, item.Valid) (hOthers : ∀ item ∈ others, item.Valid)
    (h : printItems quote items ++ xs = printItems quote others ++ ys) : items = others ∧ xs = ys := by
  induction items generalizing others with
  | nil =>
    cases others with
    | nil => exact ⟨rfl, List.append_cancel_left h⟩
    | cons other others =>
      rw [printItems, printItems, List.append_assoc] at h
      exact absurd h (print_ne_mark hQuotes (hOthers other List.mem_cons_self) (.inl rfl) _ _)
  | cons item rest ih =>
    cases others with
    | nil =>
      rw [printItems, printItems, List.append_assoc] at h
      exact absurd h.symm (print_ne_mark hQuotes (hValid item List.mem_cons_self) (.inl rfl) _ _)
    | cons other others =>
      rw [List.forall_mem_cons] at hItems hValid hOthers
      have hText : print quote item ++ (comma rest ++ printItems quote rest ++ xs) =
          print quote other ++ (comma others ++ printItems quote others ++ ys) := by
        simp only [printItems, List.append_assoc] at h ⊢
        exact h
      obtain ⟨rfl, hTail⟩ := hItems.1 other _ _ hValid.1 hOthers.1 (delimited_printItems rest xs)
        (delimited_printItems others ys) hText
      have hRest : rest = others ∧ xs = ys := by
        cases rest with
        | nil =>
          cases others with
          | nil => exact ih hItems.2 hValid.2 hOthers.2 hTail
          | cons next others => cases (List.cons.inj hTail).1
        | cons first rest =>
          cases others with
          | nil => cases (List.cons.inj hTail).1
          | cons next others => exact ih hItems.2 hValid.2 hOthers.2 (List.cons.inj hTail).2
      obtain ⟨rfl, hEnd⟩ := hRest
      exact ⟨rfl, hEnd⟩

theorem quote_ne_brace (hQuotes : Quotes quote) (s : σ) (xs ys : List Char) : '\x7d' :: xs ≠ quote s ++ ys := by
  obtain ⟨cs, hHead⟩ := hQuotes.head s
  intro hSame
  rw [hHead] at hSame
  cases (List.cons.inj hSame).1

theorem printFields_append_inj (hQuotes : Quotes quote) {fields others : List (σ × JsonTree σ)} {xs ys : List Char}
    (hFields : ∀ field ∈ fields, Readable quote field.2) (hValid : ∀ field ∈ fields, field.2.Valid)
    (hOthers : ∀ field ∈ others, field.2.Valid) (h : printFields quote fields ++ xs = printFields quote others ++ ys) :
    fields = others ∧ xs = ys := by
  induction fields generalizing others with
  | nil =>
    cases others with
    | nil => exact ⟨rfl, List.append_cancel_left h⟩
    | cons other others =>
      obtain ⟨key, value⟩ := other
      rw [printFields, printFields, List.append_assoc] at h
      exact absurd h (quote_ne_brace hQuotes key _ _)
  | cons field rest ih =>
    obtain ⟨key, value⟩ := field
    cases others with
    | nil =>
      rw [printFields, printFields, List.append_assoc] at h
      exact absurd h.symm (quote_ne_brace hQuotes key _ _)
    | cons other others =>
      obtain ⟨key', value'⟩ := other
      rw [List.forall_mem_cons] at hFields hValid hOthers
      rw [printFields, printFields, List.append_assoc, List.append_assoc] at h
      obtain ⟨rfl, hAfter⟩ := hQuotes.append_inj key key' _ _ h
      have hValue : print quote value ++ (comma rest ++ printFields quote rest ++ xs) =
          print quote value' ++ (comma others ++ printFields quote others ++ ys) := by
        simp only [List.cons_append, List.append_assoc] at hAfter ⊢
        exact (List.cons.inj hAfter).2
      obtain ⟨hSame, hTail⟩ := hFields.1 value' _ _ hValid.1 hOthers.1 (delimited_printFields rest xs)
        (delimited_printFields others ys) hValue
      dsimp only at hSame
      subst hSame
      have hRest : rest = others ∧ xs = ys := by
        cases rest with
        | nil =>
          cases others with
          | nil => exact ih hFields.2 hValid.2 hOthers.2 hTail
          | cons next others => cases (List.cons.inj hTail).1
        | cons first rest =>
          cases others with
          | nil => cases (List.cons.inj hTail).1
          | cons next others => exact ih hFields.2 hValid.2 hOthers.2 (List.cons.inj hTail).2
      obtain ⟨rfl, hEnd⟩ := hRest
      exact ⟨rfl, hEnd⟩

/-- By induction on the size of the tree. -/
theorem readable (hQuotes : Quotes quote) (tree : JsonTree σ) : Readable quote tree := by
  induction hSize : sizeOf tree using Nat.strongRecOn generalizing tree with
  | ind n ih =>
    intro other xs ys hTree hOther hx hy h
    have hMark := mark_eq_of_print hQuotes hTree hOther h
    cases hTree with
    | atom _ chars =>
      cases hOther with
      | atom _ chars' =>
        rw [print, print] at h
        obtain ⟨rfl, hEnd⟩ := word_append_inj chars chars' hx hy h
        exact ⟨rfl, hEnd⟩
      | text | array | object => cases hMark
    | text s =>
      cases hOther with
      | text t =>
        rw [print, print] at h
        obtain ⟨rfl, hEnd⟩ := hQuotes.append_inj s t xs ys h
        exact ⟨rfl, hEnd⟩
      | atom | array | object => cases hMark
    | array hItems =>
      rename_i items
      cases hOther with
      | array hOthers =>
        rw [print, print] at h
        have hReadable : ∀ item ∈ items, Readable quote item := by
          intro item hItem
          refine ih (sizeOf item) ?_ item rfl
          have hLt := List.sizeOf_lt_of_mem hItem
          rw [← hSize, JsonTree.array.sizeOf_spec]
          omega
        obtain ⟨rfl, hEnd⟩ := printItems_append_inj hQuotes hReadable hItems hOthers (List.cons.inj h).2
        exact ⟨rfl, hEnd⟩
      | atom | text | object => cases hMark
    | object hFields =>
      rename_i fields
      cases hOther with
      | object hOthers =>
        rw [print, print] at h
        have hReadable : ∀ field ∈ fields, Readable quote field.2 := by
          intro field hField
          refine ih (sizeOf field.2) ?_ field.2 rfl
          have hLt := List.sizeOf_lt_of_mem hField
          obtain ⟨key, value⟩ := field
          rw [Prod.mk.sizeOf_spec] at hLt
          rw [← hSize, JsonTree.object.sizeOf_spec]
          simp only
          omega
        obtain ⟨rfl, hEnd⟩ := printFields_append_inj hQuotes hReadable hFields hOthers (List.cons.inj h).2
        exact ⟨rfl, hEnd⟩
      | atom | text | array => cases hMark

theorem print_injective (hQuotes : Quotes quote) {tree other : JsonTree σ} (hTree : tree.Valid) (hOther : other.Valid)
    (h : print quote tree = print quote other) : tree = other := by
  refine (readable hQuotes tree other [] [] hTree hOther trivial trivial ?_).1
  rw [h]

end Reading

end Printed
