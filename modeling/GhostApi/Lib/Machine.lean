import Mathlib.Logic.Function.Basic

/-!
# Runs of a guarded transition function

A machine is a start state with a partial step function. A run lists the
events in order; its guard restricts each step by the state before it, so
that a conditional safety result is a statement about guarded runs.
-/

namespace Transition

variable {σ ε : Type*}

structure Machine (σ ε : Type*) where
  initial : σ
  step : σ → ε → Option σ

namespace Machine

/-- States reached by event lists all of whose steps meet the guard. -/
inductive Run (M : Machine σ ε) (guard : σ → ε → Prop) : List ε → σ → Prop
  | start : Run M guard [] M.initial
  | next {es : List ε} {s s' : σ} {e : ε} (before : Run M guard es s) (allowed : guard s e)
      (taken : M.step s e = some s') : Run M guard (es ++ [e]) s'

abbrev FreeRun (M : Machine σ ε) : List ε → σ → Prop := M.Run fun _ _ => True

theorem Run.invariant {M : Machine σ ε} {guard : σ → ε → Prop} {I : σ → Prop}
    (initial : I M.initial)
    (step : ∀ s e s', I s → guard s e → M.step s e = some s' → I s')
    {es : List ε} {s : σ} (run : M.Run guard es s) : I s := by
  induction run with
  | start => exact initial
  | next _ allowed taken ih => exact step _ _ _ ih allowed taken

theorem Run.mono {M : Machine σ ε} {guard weaker : σ → ε → Prop}
    (h : ∀ s e, guard s e → weaker s e) {es : List ε} {s : σ} (run : M.Run guard es s) :
    M.Run weaker es s := by
  induction run with
  | start => exact .start
  | next _ allowed taken ih => exact .next ih (h _ _ allowed) taken

/-- Every step of a run has the property, in the state in which it is taken. -/
def Always (M : Machine σ ε) (property : σ → ε → Prop) (es : List ε) : Prop :=
  ∀ before e after s, es = before ++ e :: after → M.FreeRun before s → property s e

theorem always_congr_run {M : Machine σ ε} {property property' : σ → ε → Prop}
    (h : ∀ es s e, M.FreeRun es s → (property s e ↔ property' s e)) (es : List ε) :
    M.Always property es ↔ M.Always property' es :=
  forall_congr' fun before => forall_congr' fun e => forall_congr' fun _ => forall_congr' fun s =>
    imp_congr_right fun _ => imp_congr_right fun run => h before s e run

theorem always_congr {M : Machine σ ε} {property property' : σ → ε → Prop} (h : ∀ s e, property s e ↔ property' s e)
    (es : List ε) : M.Always property es ↔ M.Always property' es :=
  always_congr_run (fun _ s e _ => h s e) es

def resume (M : Machine σ ε) (s : σ) : Machine σ ε := { M with initial := s }

theorem Run.append {M : Machine σ ε} {guard : σ → ε → Prop} {es fs : List ε} {s s' : σ} (run : M.Run guard es s)
    (rest : (M.resume s).Run guard fs s') : M.Run guard (es ++ fs) s' := by
  induction rest with
  | start => simpa [resume] using run
  | next _ allowed taken ih =>
    rw [← List.append_assoc]
    exact ih.next allowed taken

/-- Executing a list of events; it fails at the first step that is not enabled. -/
def exec (M : Machine σ ε) : σ → List ε → Option σ
  | s, [] => some s
  | s, e :: es => (M.step s e).bind (M.exec · es)

theorem Run.exec {M : Machine σ ε} {guard : σ → ε → Prop} {past es : List ε} {s s' : σ}
    (run : M.Run guard past s) (allowed : ∀ e ∈ es, ∀ s, guard s e)
    (h : M.exec s es = some s') : M.Run guard (past ++ es) s' := by
  induction es generalizing past s with
  | nil =>
    cases h
    simpa using run
  | cons e es ih =>
    obtain ⟨mid, hMid, hRest⟩ := Option.bind_eq_some_iff.mp h
    have hRun := ih (run.next (allowed e List.mem_cons_self s) hMid)
      (fun e he => allowed e (List.mem_cons_of_mem _ he)) hRest
    simpa using hRun

/-- Executing a list of events as long as each passes a test. -/
def execIf (M : Machine σ ε) (test : σ → ε → Bool) : σ → List ε → Option σ
  | s, [] => some s
  | s, e :: es => if test s e then (M.step s e).bind (M.execIf test · es) else none

@[simp] theorem execIf_resume {M : Machine σ ε} {test : σ → ε → Bool} {mid s : σ} {es : List ε} :
    (M.resume mid).execIf test s es = M.execIf test s es := by
  induction es generalizing s with
  | nil => rfl
  | cons e es ih =>
    unfold execIf
    simp only [ih]
    rfl

theorem Run.execIf {M : Machine σ ε} {guard : σ → ε → Prop} {test : σ → ε → Bool} {past es : List ε} {s s' : σ}
    (run : M.Run guard past s) (allowed : ∀ s e, test s e = true → guard s e)
    (h : M.execIf test s es = some s') : M.Run guard (past ++ es) s' := by
  induction es generalizing past s with
  | nil =>
    cases h
    simpa using run
  | cons e es ih =>
    unfold Machine.execIf at h
    split at h
    · rename_i hTest
      obtain ⟨mid, hMid, hRest⟩ := Option.bind_eq_some_iff.mp h
      simpa using ih (run.next (allowed s e hTest) hMid) hRest
    · cases h

theorem runs_of_execIf {α : Type*} (M : Machine σ ε) {guard : σ → ε → Prop} {test : σ → ε → Bool} (es fs : List ε)
    (observe : σ → α) {seen seen' : α} (allowed : ∀ s e, test s e = true → guard s e)
    (h : ((M.execIf test M.initial es).bind fun s => (M.execIf test s fs).map fun s' => (observe s, observe s')) =
      some (seen, seen')) :
    ∃ s s', M.Run guard es s ∧ (M.resume s).Run guard fs s' ∧ observe s = seen ∧ observe s' = seen' := by
  obtain ⟨s, hFirst, hRest⟩ := Option.bind_eq_some_iff.mp h
  obtain ⟨s', hSecond, hSeen⟩ := Option.map_eq_some_iff.mp hRest
  obtain ⟨rfl, rfl⟩ := Prod.mk.inj hSeen
  have hResumed : (M.resume s).execIf test s fs = some s' := execIf_resume.trans hSecond
  exact ⟨s, s', Run.start.execIf allowed hFirst, Run.start.execIf allowed hResumed, rfl, rfl⟩

theorem freeRun_of_exec {M : Machine σ ε} {es : List ε} {s : σ}
    (h : M.exec M.initial es = some s) : M.FreeRun es s :=
  Run.start.exec (fun _ _ _ => trivial) h

end Machine

end Transition
