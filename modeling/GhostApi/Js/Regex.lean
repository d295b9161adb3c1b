import Mathlib.Data.List.Basic

/-!
# Backtracking patterns over characters

The fragment of JavaScript regular expressions without captures, anchors and
lookaround in which only single-character classes are repeated. A pattern is
run with a continuation on the remaining text, so greedy and lazy repetition
choose the same match as the leftmost backtracking search of the language.
-/

namespace Js

inductive Pattern
  | empty
  | cls (accepts : Char → Bool)
  | rep (accepts : Char → Bool) (atLeast : Nat) (atMost : Option Nat) (greedy : Bool)
  | seq (first second : Pattern)
  | alt (first second : Pattern)

namespace Pattern

variable {β : Type*}

def runRep (accepts : Char → Bool) (greedy : Bool) (next : List Char → Option β) :
    Nat → Option Nat → List Char → Option β
  | atLeast, _, [] => if atLeast = 0 then next [] else none
  | atLeast, atMost, c :: cs =>
    let more := if accepts c && atMost != some 0 then
      runRep accepts greedy next (atLeast - 1) (atMost.map (· - 1)) cs else none
    if atLeast = 0 then (if greedy then more <|> next (c :: cs) else next (c :: cs) <|> more) else more

def run : Pattern → (List Char → Option β) → List Char → Option β
  | empty, next, cs => next cs
  | cls accepts, next, cs => match cs with
    | [] => none
    | c :: cs => if accepts c then next cs else none
  | rep accepts atLeast atMost greedy, next, cs => runRep accepts greedy next atLeast atMost cs
  | seq a b, next, cs => a.run (b.run next) cs
  | alt a b, next, cs => a.run next cs <|> b.run next cs

def matchPrefix (p : Pattern) (cs : List Char) : Option (List Char) := p.run some cs

/-- Replacing all matches from left to right, for patterns that match no empty
text. The counter says how many characters of the last match are still to skip. -/
def replaceGo (p : Pattern) (mask : List Char) : Nat → List Char → List Char
  | _, [] => []
  | skip + 1, _ :: cs => replaceGo p mask skip cs
  | 0, c :: cs => match p.matchPrefix (c :: cs) with
    | some rest => mask ++ replaceGo p mask (cs.length - rest.length) cs
    | none => c :: replaceGo p mask 0 cs

def replaceAll (p : Pattern) (mask cs : List Char) : List Char := p.replaceGo mask 0 cs

def char (c : Char) : Pattern := cls (· == c)

def literal : List Char → Pattern
  | [] => empty
  | [c] => char c
  | c :: cs => seq (char c) (literal cs)

/-- One or more characters of a class, as many as possible. -/
def many1 (accepts : Char → Bool) : Pattern := rep accepts 1 none true

def atLeast (accepts : Char → Bool) (n : Nat) : Pattern := rep accepts n none true

def exactly (accepts : Char → Bool) (n : Nat) : Pattern := rep accepts n (some n) true

def opt (p : Pattern) : Pattern := alt p empty

/-! ## Texts that a match cannot enter -/

theorem runRep_eq_none {accepts : Char → Bool} {greedy : Bool} {next : List Char → Option β}
    (cs : List Char) (h : ∀ x, x <:+ cs → next x = none) (atLeast : Nat) (atMost : Option Nat) :
    runRep accepts greedy next atLeast atMost cs = none := by
  induction cs generalizing atLeast atMost with
  | nil => simp [runRep, h [] (List.suffix_refl _)]
  | cons c cs ih =>
    have hRest := ih fun x hx => h x (hx.trans (List.suffix_cons c cs))
    simp [runRep, hRest, h (c :: cs) (List.suffix_refl _)]

theorem run_eq_none (p : Pattern) {next : List Char → Option β} (cs : List Char)
    (h : ∀ x, x <:+ cs → next x = none) : p.run next cs = none := by
  induction p generalizing next cs with
  | empty => exact h cs (List.suffix_refl _)
  | cls accepts =>
    cases cs with
    | nil => rfl
    | cons c cs => simp [run, h cs (List.suffix_cons c cs)]
  | rep accepts atLeast atMost greedy => exact runRep_eq_none cs h atLeast atMost
  | seq a b ihA ihB => exact ihA cs fun x hx => ihB x fun y hy => h y (hy.trans hx)
  | alt a b ihA ihB => simp [run, ihA cs h, ihB cs h]

variable {u tail : List Char} {next next' : List Char → Option (List Char)}

theorem runRep_append {accepts : Char → Bool} {greedy : Bool} (u : List Char)
    (inside : ∀ x, x <:+ tail → x.length < tail.length → next x = none)
    (before : ∀ v, v <:+ u → next (v ++ tail) = (next' v).map (· ++ tail))
    (atLeast : Nat) (atMost : Option Nat) :
    runRep accepts greedy next atLeast atMost (u ++ tail) =
      (runRep accepts greedy next' atLeast atMost u).map (· ++ tail) := by
  induction u generalizing atLeast atMost with
  | nil =>
    have hStart := before [] (List.suffix_refl _)
    rw [List.nil_append] at hStart ⊢
    cases tail with
    | nil => cases atLeast <;> simp_all [runRep]
    | cons c tail =>
      have hInside : ∀ x, x <:+ tail → next x = none := fun x hx =>
        inside x (hx.trans (List.suffix_cons c tail)) (Nat.lt_succ_of_le hx.length_le)
      have hMore : ∀ atLeast atMost, runRep accepts greedy next atLeast atMost tail = none :=
        runRep_eq_none tail hInside
      cases atLeast <;> cases greedy <;> simp [runRep, hMore, hStart]
  | cons c u ih =>
    have hMore := ih fun v hv => before v (hv.trans (List.suffix_cons c u))
    have hStop := before (c :: u) (List.suffix_refl _)
    rw [List.cons_append] at hStop ⊢
    simp only [runRep, hMore, hStop]
    split <;> split <;> try split
    all_goals simp [Option.map_or]

theorem run_append (p : Pattern)
    (inside : ∀ x, x <:+ tail → x.length < tail.length → next x = none)
    (before : ∀ v, v <:+ u → next (v ++ tail) = (next' v).map (· ++ tail)) :
    p.run next (u ++ tail) = (p.run next' u).map (· ++ tail) := by
  induction p generalizing next next' u with
  | empty => exact before u (List.suffix_refl _)
  | cls accepts =>
    cases u with
    | nil =>
      cases tail with
      | nil => rfl
      | cons c tail => simp [run, inside tail (List.suffix_cons c tail) (Nat.lt_succ_self _)]
    | cons c u =>
      simp only [run, List.cons_append, before u (List.suffix_cons c u)]
      split <;> rfl
  | rep accepts atLeast atMost greedy => exact runRep_append u inside before atLeast atMost
  | seq a b ihA ihB =>
    apply ihA
    · intro x hx hLt
      exact run_eq_none b x fun y hy => inside y (hy.trans hx) (Nat.lt_of_le_of_lt hy.length_le hLt)
    · intro v hv
      exact ihB inside fun w hw => before w (hw.trans hv)
  | alt a b ihA ihB => simp [run, ihA inside before, ihB inside before, Option.map_or]

/-! ## Texts around a match

The characters of the outside class start no match and end no match, so that
replacing commutes with putting such characters before or after a text. -/

/-- No match ends inside a text of outside characters that follows. -/
structure StopsBefore (outside : Char → Bool) (p : Pattern) : Prop where
  inside : ∀ w, (∀ c ∈ w, outside c = true) → p.run some w = none
  before : ∀ w, (∀ c ∈ w, outside c = true) →
    ∀ u, p.run some (u ++ w) = (p.run some u).map (· ++ w)

theorem suffix_all {outside : Char → Bool} {x w : List Char} (hx : x <:+ w)
    (hw : ∀ c ∈ w, outside c = true) : ∀ c ∈ x, outside c = true :=
  fun c hc => hw c (hx.mem hc)

theorem runRep_outside {outside accepts : Char → Bool} {greedy : Bool} {next : List Char → Option β}
    (hApart : ∀ c, outside c = true → accepts c = false) {w : List Char}
    (hw : ∀ c ∈ w, outside c = true) (atLeast : Nat) (atMost : Option Nat) :
    runRep accepts greedy next atLeast atMost w = if atLeast = 0 then next w else none := by
  cases w with
  | nil => rfl
  | cons c w =>
    have hc := hApart c (hw c List.mem_cons_self)
    cases greedy <;> simp [runRep, hc]

theorem runRep_before {outside accepts : Char → Bool} {greedy : Bool}
    (hApart : ∀ c, outside c = true → accepts c = false) {w : List Char}
    (hw : ∀ c ∈ w, outside c = true) (u : List Char) (atLeast : Nat) (atMost : Option Nat) :
    runRep accepts greedy some atLeast atMost (u ++ w) =
      (runRep accepts greedy some atLeast atMost u).map (· ++ w) := by
  induction u generalizing atLeast atMost with
  | nil =>
    rw [List.nil_append, runRep_outside hApart hw, runRep]
    split <;> rfl
  | cons c u ih =>
    rw [List.cons_append]
    simp only [runRep, ih]
    cases runRep accepts greedy some (atLeast - 1) (atMost.map (· - 1)) u <;>
      cases accepts c && atMost != some 0 <;> cases greedy <;> cases atLeast <;> rfl

theorem StopsBefore.rep {outside accepts : Char → Bool} {greedy : Bool} {n : Nat} {atMost : Option Nat}
    (hApart : ∀ c, outside c = true → accepts c = false) :
    StopsBefore outside (rep accepts (n + 1) atMost greedy) where
  inside w hw := by
    rw [run, runRep_outside hApart hw]
    rfl
  before w hw u := runRep_before hApart hw u (n + 1) atMost

theorem StopsBefore.cls {outside accepts : Char → Bool}
    (hApart : ∀ c, outside c = true → accepts c = false) : StopsBefore outside (cls accepts) where
  inside w hw := by
    cases w with
    | nil => rfl
    | cons c w => simp [run, hApart c (hw c List.mem_cons_self)]
  before w hw u := by
    cases u with
    | nil =>
      cases w with
      | nil => rfl
      | cons c w => simp [run, hApart c (hw c List.mem_cons_self)]
    | cons c u =>
      simp only [run, List.cons_append]
      split <;> rfl

theorem StopsBefore.seq {outside : Char → Bool} (a : Pattern) {b : Pattern} (hb : StopsBefore outside b) :
    StopsBefore outside (seq a b) where
  inside w hw := run_eq_none a w fun _ hx => hb.inside _ (suffix_all hx hw)
  before w hw _ :=
    run_append a (fun _ hx _ => hb.inside _ (suffix_all hx hw)) fun v _ => hb.before w hw v

theorem StopsBefore.alt {outside : Char → Bool} {a b : Pattern} (ha : StopsBefore outside a)
    (hb : StopsBefore outside b) : StopsBefore outside (alt a b) where
  inside w hw := by simp [run, ha.inside w hw, hb.inside w hw]
  before w hw u := by simp [run, ha.before w hw u, hb.before w hw u, Option.map_or]

theorem StopsBefore.literal {outside : Char → Bool} (c : Char) (cs : List Char)
    (hLast : outside ((c :: cs).getLast (List.cons_ne_nil c cs)) = false) :
    StopsBefore outside (literal (c :: cs)) := by
  induction cs generalizing c with
  | nil =>
    refine StopsBefore.cls fun d hd => ?_
    rw [beq_eq_false_iff_ne]
    rintro rfl
    simp_all
  | cons d cs ih => exact StopsBefore.seq _ (ih d (by simpa using hLast))

/-- No match starts in the text, whatever follows it. The test follows literal
characters only and is conservative elsewhere. -/
def dead : Pattern → List Char → Bool
  | cls accepts, c :: _ => !accepts c
  | rep accepts (_ + 1) _ _, c :: _ => !accepts c
  | seq (cls accepts) b, c :: cs => !accepts c || b.dead cs
  | seq a _, cs => a.dead cs
  | alt a b, cs => a.dead cs && b.dead cs
  | _, _ => false

theorem run_eq_none_of_dead (p : Pattern) {next : List Char → Option β} {cs : List Char}
    (h : p.dead cs = true) (rest : List Char) : p.run next (cs ++ rest) = none := by
  fun_induction dead p cs generalizing next with
  | case1 accepts c cs => simp_all [run]
  | case2 accepts n atMost greedy c cs => simp_all [run, runRep]
  | case3 accepts b c cs ih =>
    rw [Bool.or_eq_true] at h
    rcases h with h | h
    · simp_all [run]
    · simp [run, ih h]
  | case4 a b cs _ ih => exact ih h
  | case5 a b cs ihA ihB =>
    rw [Bool.and_eq_true] at h
    simp [run, ihA h.1, ihB h.2]
  | case6 => cases h

def deadAlong (p : Pattern) : List Char → Bool
  | [] => true
  | c :: cs => p.dead (c :: cs) && p.deadAlong cs

theorem dead_append {p : Pattern} {cs : List Char} (h : p.dead cs = true) (rest : List Char) :
    p.dead (cs ++ rest) = true := by
  fun_induction dead p cs with
  | case1 accepts c cs => exact h
  | case2 accepts n atMost greedy c cs => exact h
  | case3 accepts b c cs ih =>
    rw [Bool.or_eq_true] at h
    rw [List.cons_append, dead, Bool.or_eq_true]
    exact h.imp_right ih
  | case4 a b cs hOther ih =>
    have hDead := ih h
    cases a with
    | cls accepts =>
      cases cs with
      | nil => cases h
      | cons c cs => exact absurd rfl (hOther accepts c cs rfl)
    | _ => exact hDead
  | case5 a b cs ihA ihB =>
    rw [Bool.and_eq_true] at h
    rw [dead, ihA h.1, ihB h.2]
    rfl
  | case6 => cases h

theorem deadAlong_append {p : Pattern} {before cs : List Char} (h : p.deadAlong before = true)
    (hRest : p.deadAlong cs = true) : p.deadAlong (before ++ cs) = true := by
  induction before with
  | nil => exact hRest
  | cons c before ih =>
    rw [deadAlong, Bool.and_eq_true] at h
    rw [List.cons_append, deadAlong, Bool.and_eq_true]
    exact ⟨dead_append h.1 cs, ih h.2⟩

theorem replaceAll_dead_append {p : Pattern} {mask before : List Char} (h : p.deadAlong before = true)
    (cs : List Char) : p.replaceAll mask (before ++ cs) = before ++ p.replaceAll mask cs := by
  induction before with
  | nil => rfl
  | cons c before ih =>
    rw [deadAlong, Bool.and_eq_true] at h
    have hNone : p.matchPrefix ((c :: before) ++ cs) = none := run_eq_none_of_dead p h.1 cs
    rw [List.cons_append] at hNone ⊢
    rw [replaceAll, replaceGo, hNone]
    simpa [replaceAll] using ih h.2

theorem matchPrefix_eq_none_of_dead {p : Pattern} {c : Char} (h : p.dead [c] = true) (cs : List Char) :
    p.matchPrefix (c :: cs) = none :=
  run_eq_none_of_dead p h cs

/-- Every match has a character that is not in the list. The test is conservative. -/
def leaves (allowed : List Char) : Pattern → Bool
  | cls accepts => allowed.all (!accepts ·)
  | rep accepts (_ + 1) _ _ => allowed.all (!accepts ·)
  | seq a b => a.leaves allowed || b.leaves allowed
  | alt a b => a.leaves allowed && b.leaves allowed
  | _ => false

theorem run_eq_none_of_leaves (p : Pattern) {next : List Char → Option β} {allowed cs : List Char}
    (h : p.leaves allowed = true) (hAllowed : ∀ c ∈ cs, c ∈ allowed) : p.run next cs = none := by
  fun_induction leaves allowed p generalizing next cs with
  | case1 accepts =>
    cases cs with
    | nil => rfl
    | cons c cs => simp [run, by simpa using List.all_eq_true.mp h c (hAllowed c List.mem_cons_self)]
  | case2 accepts n atMost greedy =>
    cases cs with
    | nil => rfl
    | cons c cs => simp [run, runRep, by simpa using List.all_eq_true.mp h c (hAllowed c List.mem_cons_self)]
  | case3 a b ihA ihB =>
    rcases (Bool.or_eq_true _ _).mp h with h | h
    · exact ihA h hAllowed
    · exact run_eq_none a cs fun x hx => ihB h fun c hc => hAllowed c (hx.mem hc)
  | case4 a b ihA ihB =>
    rw [Bool.and_eq_true] at h
    simp [run, ihA h.1 hAllowed, ihB h.2 hAllowed]
  | case5 => cases h

theorem replaceAll_of_leaves {p : Pattern} {allowed cs : List Char} (mask : List Char)
    (h : p.leaves allowed = true) (hAllowed : ∀ c ∈ cs, c ∈ allowed) : p.replaceAll mask cs = cs := by
  induction cs with
  | nil => rfl
  | cons c cs ih =>
    have hNone : p.matchPrefix (c :: cs) = none := run_eq_none_of_leaves p h hAllowed
    rw [List.forall_mem_cons] at hAllowed
    rw [replaceAll, replaceGo, hNone]
    exact congrArg (c :: ·) (ih hAllowed.2)

/-- A pattern whose matches neither start nor end with an outside character. -/
structure Apart (outside : Char → Bool) (p : Pattern) : Prop where
  starts : ∀ c, outside c = true → p.dead [c] = true
  stops : StopsBefore outside p

theorem Apart.replaceAll_outside_append {outside : Char → Bool} {p : Pattern} (h : Apart outside p)
    (mask : List Char) {w : List Char} (hw : ∀ c ∈ w, outside c = true) (cs : List Char) :
    p.replaceAll mask (w ++ cs) = w ++ p.replaceAll mask cs := by
  induction w with
  | nil => rfl
  | cons c w ih =>
    rw [List.forall_mem_cons] at hw
    have hNone := matchPrefix_eq_none_of_dead (h.starts c hw.1) (w ++ cs)
    rw [List.cons_append, replaceAll, replaceGo, hNone]
    simpa [replaceAll] using ih hw.2

theorem Apart.replaceAll_outside {outside : Char → Bool} {p : Pattern} (h : Apart outside p)
    (mask : List Char) {w : List Char} (hw : ∀ c ∈ w, outside c = true) : p.replaceAll mask w = w := by
  simpa [replaceAll, replaceGo] using h.replaceAll_outside_append mask hw []

theorem Apart.replaceGo_append_outside {outside : Char → Bool} {p : Pattern} (h : Apart outside p)
    (mask : List Char) {w : List Char} (hw : ∀ c ∈ w, outside c = true) (u : List Char) (skip : Nat)
    (hSkip : skip ≤ u.length) : p.replaceGo mask skip (u ++ w) = p.replaceGo mask skip u ++ w := by
  induction u generalizing skip with
  | nil =>
    obtain rfl : skip = 0 := Nat.le_zero.mp hSkip
    exact h.replaceAll_outside mask hw
  | cons c u ih =>
    cases skip with
    | succ skip => exact ih skip (Nat.le_of_succ_le_succ hSkip)
    | zero =>
      have hMatch : p.matchPrefix ((c :: u) ++ w) = (p.matchPrefix (c :: u)).map (· ++ w) :=
        h.stops.before w hw (c :: u)
      rw [List.cons_append] at hMatch ⊢
      rw [replaceGo, replaceGo, hMatch]
      cases p.matchPrefix (c :: u) with
      | none => simp [ih 0 (Nat.zero_le _)]
      | some rest =>
        have hLength : (u ++ w).length - (rest ++ w).length = u.length - rest.length := by
          simp only [List.length_append]
          omega
        simp only [Option.map_some, hLength, ih _ (Nat.sub_le _ _), List.append_assoc]

theorem Apart.replaceAll_append_outside {outside : Char → Bool} {p : Pattern} (h : Apart outside p)
    (mask : List Char) {w : List Char} (hw : ∀ c ∈ w, outside c = true) (u : List Char) :
    p.replaceAll mask (u ++ w) = p.replaceAll mask u ++ w :=
  h.replaceGo_append_outside mask hw u 0 (Nat.zero_le _)

end Pattern

end Js
