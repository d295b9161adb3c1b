import Mathlib.Data.List.Basic
import Mathlib.Logic.Function.Basic

/-!
# Texts with slots

A template is a list of texts and named slots. Bindings give slots their
texts; reading a text against a template binds the slots that have none yet,
each to the shortest text that lets the rest be read, and filling a template
binds them to a default. A slot that has a text keeps it, so that all that was
read and filled are instances of the templates under the last bindings.
-/

namespace Template

variable {ν α : Type*}

inductive Item (ν α : Type*)
  | text (text : List α)
  | slot (name : ν)

abbrev Bindings (ν α : Type*) := ν → Option (List α)

def Extends (b b' : Bindings ν α) : Prop := ∀ name text, b name = some text → b' name = some text

theorem Extends.refl (b : Bindings ν α) : Extends b b := fun _ _ h => h

theorem Extends.trans {a b c : Bindings ν α} (h : Extends a b) (hNext : Extends b c) : Extends a c :=
  fun name text hBound => hNext name text (h name text hBound)

def spell (b : Bindings ν α) : Item ν α → List α
  | .text text => text
  | .slot name => (b name).getD []

def instantiate (b : Bindings ν α) (template : List (Item ν α)) : List α := template.flatMap (spell b)

def slots : List (Item ν α) → List ν
  | [] => []
  | .text _ :: rest => slots rest
  | .slot name :: rest => name :: slots rest

def Covers (b : Bindings ν α) (template : List (Item ν α)) : Prop := ∀ name ∈ slots template, ∃ text, b name = some text

structure Reads (b : Bindings ν α) (template : List (Item ν α)) (text : List α) : Prop where
  covers : Covers b template
  spelled : text = instantiate b template

theorem reads_nil (b : Bindings ν α) : Reads b [] [] where
  covers _ h := absurd h List.not_mem_nil
  spelled := rfl

theorem Reads.text {b : Bindings ν α} {template : List (Item ν α)} {rest : List α} (h : Reads b template rest)
    (text : List α) : Reads b (.text text :: template) (text ++ rest) where
  covers := h.covers
  spelled := congrArg (text ++ ·) h.spelled

theorem Reads.slot {b : Bindings ν α} {template : List (Item ν α)} {rest text : List α} {name : ν}
    (h : Reads b template rest) (hName : b name = some text) : Reads b (.slot name :: template) (text ++ rest) where
  covers := List.forall_mem_cons.mpr ⟨⟨text, hName⟩, h.covers⟩
  spelled := by
    change text ++ rest = (b name).getD [] ++ instantiate b template
    rw [hName, ← h.spelled]
    rfl

variable [DecidableEq ν]

def bind (name : ν) (text : List α) (b : Bindings ν α) : Bindings ν α := Function.update b name (some text)

theorem bind_self (name : ν) (text : List α) (b : Bindings ν α) : bind name text b name = some text :=
  Function.update_self ..

theorem extends_bind {name : ν} {text : List α} {b : Bindings ν α} (h : ∀ old, b name = some old → old = text) :
    Extends b (bind name text b) := by
  intro other bound hBound
  by_cases hSame : other = name
  · subst hSame
    rw [bind_self, h bound hBound]
  · rw [bind, Function.update_of_ne hSame, hBound]

/-! ## Reading a text -/

/-- What is matched for an item: a slot without a text takes any letters that may stand in one, the fewest first. -/
inductive Piece (α : Type*)
  | text (text : List α)
  | group (text : List α)
  | shortest

def piece (b : Bindings ν α) : Item ν α → Piece α
  | .text text => .text text
  | .slot name => match b name with
    | none => .shortest
    | some text => .group text

section Matching

variable [DecidableEq α] (stop : α → Bool)

/-- At least one letter is taken, none of them a stop; the letters taken so far come first. -/
def takeShortest (next : List α → Option (List (List α))) (taken : List α) : List α → Option (List (List α))
  | [] => none
  | letter :: rest =>
    if stop letter then none
    else match next rest with
      | some captures => some ((taken ++ [letter]) :: captures)
      | none => takeShortest next (taken ++ [letter]) rest

/-- The captured texts of the first way to read the whole text. -/
def run : List (Piece α) → List α → Option (List (List α))
  | [], s => if s = [] then some [] else none
  | .text text :: rest, s => if text <+: s then run rest (s.drop text.length) else none
  | .group text :: rest, s => if text <+: s then (run rest (s.drop text.length)).map (text :: ·) else none
  | .shortest :: rest, s => takeShortest stop (run rest) [] s

/-- Each slot takes its capture, unless it has another text. -/
def assign : List (ν × List α) → Bindings ν α → Bool × Bindings ν α
  | [], b => (true, b)
  | (name, text) :: rest, b =>
    if b name ≠ none ∧ b name ≠ some text then (false, b) else assign rest (bind name text b)

def read (template : List (Item ν α)) (text : List α) (b : Bindings ν α) : Bool × Bindings ν α :=
  match run stop (template.map (piece b)) text with
  | none => (false, b)
  | some captures => assign ((slots template).zip captures) b

variable {stop} {b : Bindings ν α}

omit [DecidableEq α] in
theorem takeShortest_some {next : List α → Option (List (List α))} {taken s : List α} {captures : List (List α)}
    (h : takeShortest stop next taken s = some captures) :
    ∃ more rest others, s = more ++ rest ∧ captures = (taken ++ more) :: others ∧ next rest = some others := by
  induction s generalizing taken with
  | nil => cases h
  | cons letter s ih =>
    rw [takeShortest] at h
    split at h
    · cases h
    · split at h
      · rename_i others hNext
        cases h
        exact ⟨[letter], s, others, rfl, rfl, hNext⟩
      · obtain ⟨more, rest, others, rfl, rfl, hNext⟩ := ih h
        exact ⟨letter :: more, rest, others, rfl, by simp, hNext⟩

omit [DecidableEq ν] in
theorem run_reads {template : List (Item ν α)} {s : List α} {captures : List (List α)}
    (h : run stop (template.map (piece b)) s = some captures) {σ : Bindings ν α}
    (hAgree : ∀ entry ∈ (slots template).zip captures, σ entry.1 = some entry.2) : Reads σ template s := by
  induction template generalizing s captures with
  | nil =>
    rw [List.map_nil, run] at h
    split at h
    · rename_i hEmpty
      rw [hEmpty]
      exact reads_nil σ
    · cases h
  | cons item template ih =>
    rw [List.map_cons] at h
    cases item with
    | text text =>
      rw [piece, run] at h
      split at h
      · rename_i hPrefix
        obtain ⟨rest, rfl⟩ := hPrefix
        rw [List.drop_left] at h
        exact (ih h hAgree).text text
      · cases h
    | slot name =>
      have hCapture : ∃ text rest others, s = text ++ rest ∧ captures = text :: others ∧
          run stop (template.map (piece b)) rest = some others := by
        rw [piece] at h
        cases hName : b name with
        | none =>
          rw [hName] at h
          exact takeShortest_some h
        | some text =>
          rw [hName, run] at h
          split at h
          · rename_i hPrefix
            obtain ⟨rest, rfl⟩ := hPrefix
            rw [List.drop_left] at h
            obtain ⟨others, hOthers, rfl⟩ := Option.map_eq_some_iff.mp h
            exact ⟨text, rest, others, rfl, rfl, hOthers⟩
          · cases h
      obtain ⟨text, rest, others, rfl, rfl, hRun⟩ := hCapture
      rw [slots, List.zip_cons_cons, List.forall_mem_cons] at hAgree
      exact (ih hRun hAgree.2).slot hAgree.1

theorem assign_extends (entries : List (ν × List α)) (b : Bindings ν α) : Extends b (assign entries b).2 := by
  induction entries generalizing b with
  | nil => exact .refl b
  | cons entry entries ih =>
    rw [assign]
    split
    · exact .refl b
    · rename_i hFree
      refine (extends_bind fun old hOld => ?_).trans (ih _)
      by_contra hOther
      exact hFree ⟨by simp [hOld], by simpa [hOld] using hOther⟩

theorem assign_binds {entries : List (ν × List α)} {b b' : Bindings ν α} (h : assign entries b = (true, b')) :
    ∀ entry ∈ entries, b' entry.1 = some entry.2 := by
  induction entries generalizing b with
  | nil => exact fun _ hMem => absurd hMem List.not_mem_nil
  | cons entry entries ih =>
    rw [assign] at h
    split at h
    · cases h
    · rw [List.forall_mem_cons]
      refine ⟨?_, ih h⟩
      have hKept := assign_extends entries (bind entry.1 entry.2 b) entry.1 entry.2 (bind_self ..)
      rwa [h] at hKept

theorem read_extends (template : List (Item ν α)) (text : List α) (b : Bindings ν α) :
    Extends b (read stop template text b).2 := by
  rw [read]
  split
  · exact .refl b
  · exact assign_extends _ b

theorem read_reads {template : List (Item ν α)} {text : List α} {b' σ : Bindings ν α}
    (h : read stop template text b = (true, b')) (hLater : Extends b' σ) : Reads σ template text := by
  rw [read] at h
  split at h
  · cases h
  · rename_i captures hRun
    exact run_reads hRun fun entry hMem => hLater _ _ (assign_binds h entry hMem)

end Matching

/-! ## Filling a template -/

def fill (default : ν → List α) : List (Item ν α) → Bindings ν α → List α × Bindings ν α
  | [], b => ([], b)
  | .text text :: rest, b =>
    let filled := fill default rest b
    (text ++ filled.1, filled.2)
  | .slot name :: rest, b =>
    let text := (b name).getD (default name)
    let filled := fill default rest (bind name text b)
    (text ++ filled.1, filled.2)

variable {default : ν → List α}

theorem extends_bind_default (name : ν) (b : Bindings ν α) : Extends b (bind name ((b name).getD (default name)) b) :=
  extends_bind fun old hOld => by simp [hOld]

theorem fill_extends (template : List (Item ν α)) (b : Bindings ν α) : Extends b (fill default template b).2 := by
  induction template generalizing b with
  | nil => exact .refl b
  | cons item template ih =>
    cases item with
    | text text => exact ih b
    | slot name => exact (extends_bind_default name b).trans (ih _)

theorem fill_reads (template : List (Item ν α)) (b : Bindings ν α) {σ : Bindings ν α}
    (hLater : Extends (fill default template b).2 σ) : Reads σ template (fill default template b).1 := by
  induction template generalizing b with
  | nil => exact reads_nil σ
  | cons item template ih =>
    cases item with
    | text text => exact (ih b hLater).text text
    | slot name =>
      have hKept : Extends (bind name ((b name).getD (default name)) b)
        (fill default template (bind name ((b name).getD (default name)) b)).2 := fill_extends template _
      exact (ih _ hLater).slot (hLater _ _ (hKept _ _ (bind_self ..)))

end Template
