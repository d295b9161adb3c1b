import GhostApi.Lib.Machine
import Mathlib.Tactic.TypeStar

/-!
# Programs that call their environment and may stop between two calls

A program is a tree of calls. The environment answers a call by a result or
an error and changes the world; which answer it gives is the choice of a run.
A process can stop before any call, so that a statement about a program says
what holds at every call and not only at its end.
-/

namespace Effect

/-- A program with the operations that it calls and the types of their results. -/
inductive Program (Op : Type) (Ans : Op → Type) (ε α : Type)
  | done (result : Except ε α)
  | call (op : Op) (next : Except ε (Ans op) → Program Op Ans ε α)

/-- What the environment does on a call: none where it has no such answer. -/
structure Environment (σ Op : Type) (Ans : Op → Type) (ε χ : Type) where
  respond : (op : Op) → χ → σ → Option (Except ε (Ans op) × σ)

namespace Program

variable {σ Op : Type} {Ans : Op → Type} {ε χ α β : Type}

def bind : Program Op Ans ε α → (α → Program Op Ans ε β) → Program Op Ans ε β
  | done (.ok a), f => f a
  | done (.error e), _ => done (.error e)
  | call op next, f => call op fun reply => (next reply).bind f

def handle : Program Op Ans ε α → (ε → Program Op Ans ε α) → Program Op Ans ε α
  | done (.ok a), _ => done (.ok a)
  | done (.error e), handler => handler e
  | call op next, handler => call op fun reply => (next reply).handle handler

instance : Monad (Program Op Ans ε) where
  pure a := done (.ok a)
  bind := bind

instance : MonadExcept ε (Program Op Ans ε) where
  throw e := done (.error e)
  tryCatch := handle

instance : MonadLift (Except ε) (Program Op Ans ε) where
  monadLift x := done x

def perform (op : Op) : Program Op Ans ε (Ans op) := call op done

def throwIf (c : Prop) [Decidable c] (e : ε) : Program Op Ans ε Unit := if c then throw e else pure ()

@[simp] theorem bind_pure (p : Program Op Ans ε α) : p >>= pure = p := by
  induction p with
  | done result => cases result <;> rfl
  | call op next ih => exact congrArg (call op) (funext ih)

/-- What a finally block adds: it runs after any outcome and gives way to it, unless it throws. -/
def finishWith : Program Op Ans ε α → Program Op Ans ε Unit → Program Op Ans ε α
  | done result, last => last.bind fun _ => done result
  | call op next, last => call op fun reply => (next reply).finishWith last

/-- The outcome when the environment answers the calls by the given choices in turn, with the choices left. -/
def runWith (env : (op : Op) → χ → σ → Except ε (Ans op) × σ) :
    Program Op Ans ε α → (Nat → χ) → σ → Except ε α × σ × (Nat → χ)
  | done result, choices, s => (result, s, choices)
  | call op next, choices, s =>
    (next (env op (choices 0) s).1).runWith env (fun i => choices (i + 1)) (env op (choices 0) s).2

/-- The invariant holds at every call of the program and at its end, and its result is as stated. Calls
that the guard excludes are not followed. -/
def Ensures (env : Environment σ Op Ans ε χ) (guard : Op → σ → Prop) (I : σ → Prop) (Q : Except ε α → σ → Prop) :
    Program Op Ans ε α → σ → Prop
  | done result, s => I s ∧ Q result s
  | call op next, s => I s ∧ (guard op s → ∀ choice reply s', env.respond op choice s = some (reply, s') →
    Ensures env guard I Q (next reply) s')

variable {env : Environment σ Op Ans ε χ} {guard : Op → σ → Prop} {I J : σ → Prop}
  {Q R : Except ε α → σ → Prop} {s : σ}

theorem Ensures.invariant {p : Program Op Ans ε α} (h : p.Ensures env guard I Q s) : I s := by
  cases p with
  | done result => exact h.1
  | call op next => exact h.1

theorem Ensures.mono {p : Program Op Ans ε α} (h : p.Ensures env guard I Q s) (hI : ∀ s, I s → J s)
    (hQ : ∀ result s, I s → Q result s → R result s) : p.Ensures env guard J R s := by
  induction p generalizing s with
  | done result => exact ⟨hI s h.1, hQ result s h.1 h.2⟩
  | call op next ih =>
    refine ⟨hI s h.1, fun hGuard choice reply s' hReply => ?_⟩
    exact ih reply (h.2 hGuard choice reply s' hReply)

theorem ensures_throw {e : ε} (hI : I s) (hQ : Q (.error e) s) :
    (throw e : Program Op Ans ε α).Ensures env guard I Q s := ⟨hI, hQ⟩

theorem ensures_perform {op : Op} {Q : Except ε (Ans op) → σ → Prop} (hI : I s)
    (h : guard op s → ∀ choice reply s', env.respond op choice s = some (reply, s') → I s' ∧ Q reply s') :
    (perform op : Program Op Ans ε (Ans op)).Ensures env guard I Q s := ⟨hI, h⟩

theorem Ensures.bind {p : Program Op Ans ε α} {f : α → Program Op Ans ε β} {Q : Except ε β → σ → Prop}
    (h : p.Ensures env guard I (fun result s => match result with
      | .ok a => (f a).Ensures env guard I Q s
      | .error e => Q (.error e) s) s) : (p >>= f).Ensures env guard I Q s := by
  induction p generalizing s with
  | done result =>
    cases result with
    | ok a => exact h.2
    | error e => exact h
  | call op next ih =>
    refine ⟨h.1, fun hGuard choice reply s' hReply => ?_⟩
    exact ih reply (h.2 hGuard choice reply s' hReply)

theorem Ensures.tryCatch {p : Program Op Ans ε α} {handler : ε → Program Op Ans ε α}
    (h : p.Ensures env guard I (fun result s => match result with
      | .ok a => Q (.ok a) s
      | .error e => (handler e).Ensures env guard I Q s) s) :
    (tryCatch p handler).Ensures env guard I Q s := by
  induction p generalizing s with
  | done result =>
    cases result with
    | ok a => exact h
    | error e => exact h.2
  | call op next ih =>
    refine ⟨h.1, fun hGuard choice reply s' hReply => ?_⟩
    exact ih reply (h.2 hGuard choice reply s' hReply)

theorem Ensures.andThen {p : Program Op Ans ε α} {f : α → Program Op Ans ε β} {Q : Except ε β → σ → Prop}
    (h : p.Ensures env guard J R s) (hI : ∀ t, J t → I t) (hError : ∀ e t, J t → R (.error e) t → Q (.error e) t)
    (hNext : ∀ a t, J t → R (.ok a) t → (f a).Ensures env guard I Q t) : (p >>= f).Ensures env guard I Q s := by
  refine Ensures.bind (h.mono hI fun result t hJ hR => ?_)
  cases result with
  | ok a => exact hNext a t hJ hR
  | error e => exact hError e t hJ hR

theorem Ensures.caught {p : Program Op Ans ε α} {f : Option α → Program Op Ans ε β} {Q : Except ε β → σ → Prop}
    (h : p.Ensures env guard J (fun _ _ => True) s) (hI : ∀ t, J t → I t)
    (hNext : ∀ result t, J t → (f result).Ensures env guard I Q t) :
    (MonadExcept.tryCatch (some <$> p) (fun _ => pure none) >>= f).Ensures env guard I Q s := by
  have hCaught : (MonadExcept.tryCatch (some <$> p) fun _ => pure none : Program Op Ans ε (Option α)).Ensures env guard J
      (fun result _ => ∃ found, result = .ok found) s := by
    refine Ensures.tryCatch (Ensures.bind (f := fun a => pure (some a)) (h.mono (fun _ h => h) ?_))
    intro result t hJ _
    cases result with
    | ok a => exact ⟨hJ, some a, rfl⟩
    | error e => exact ⟨hJ, none, rfl⟩
  refine hCaught.andThen hI ?_ fun result t hJ _ => hNext result t hJ
  rintro e t _ ⟨_, ⟨⟩⟩

/-- A condition on the result of a program that returns. -/
def OnOk (P : α → σ → Prop) : Except ε α → σ → Prop
  | .ok a, s => P a s
  | .error _, _ => True

/-- Every call of the program and its end are related to the world that it was started in. -/
def Stays (env : Environment σ Op Ans ε χ) (guard : Op → σ → Prop) (rel : σ → σ → Prop) (p : Program Op Ans ε α) :
    Prop := ∀ s, p.Ensures env guard (rel s) (fun _ _ => True) s

theorem ensures_throwIf_bind {c : Prop} {_ : Decidable c} {e : ε} {f : Unit → Program Op Ans ε β}
    {Q : Except ε β → σ → Prop} (hI : I s) (hThrow : c → Q (.error e) s)
    (hPass : ¬c → (f ()).Ensures env guard I Q s) : (throwIf c e >>= f).Ensures env guard I Q s := by
  rw [throwIf]
  split
  · exact ⟨hI, hThrow ‹_›⟩
  · exact hPass ‹_›

theorem ensures_lift_bind {x : Except ε α} {f : α → Program Op Ans ε β} {Q : Except ε β → σ → Prop} (hI : I s)
    (hError : ∀ e, x = .error e → Q (.error e) s) (hOk : ∀ a, x = .ok a → (f a).Ensures env guard I Q s) :
    ((liftM x : Program Op Ans ε α) >>= f).Ensures env guard I Q s := by
  cases hResult : x with
  | error e => exact ⟨hI, hError e hResult⟩
  | ok a => exact hOk a hResult

/-! ## Answers in a given order -/

section Answers

variable {answer : (op : Op) → χ → σ → Except ε (Ans op) × σ} {choices rest : Nat → χ} {t : σ}

theorem runWith_lift (x : Except ε α) :
    (liftM x : Program Op Ans ε α).runWith answer choices s = (x, s, choices) := rfl

theorem runWith_bind_of_ok {p : Program Op Ans ε α} {f : α → Program Op Ans ε β} {a : α}
    (h : p.runWith answer choices s = (.ok a, t, rest)) :
    (p >>= f).runWith answer choices s = (f a).runWith answer rest t := by
  induction p generalizing choices s with
  | done result =>
    cases h
    rfl
  | call op next ih => exact ih _ h

theorem runWith_bind_of_error {p : Program Op Ans ε α} {f : α → Program Op Ans ε β} {e : ε}
    (h : p.runWith answer choices s = (.error e, t, rest)) :
    (p >>= f).runWith answer choices s = (.error e, t, rest) := by
  induction p generalizing choices s with
  | done result =>
    cases h
    rfl
  | call op next ih => exact ih _ h

theorem runWith_tryCatch_of_ok {p : Program Op Ans ε α} {handler : ε → Program Op Ans ε α} {a : α}
    (h : p.runWith answer choices s = (.ok a, t, rest)) :
    (tryCatch p handler).runWith answer choices s = (.ok a, t, rest) := by
  induction p generalizing choices s with
  | done result =>
    cases h
    rfl
  | call op next ih => exact ih _ h

theorem runWith_tryCatch_of_error {p : Program Op Ans ε α} {handler : ε → Program Op Ans ε α} {e : ε}
    (h : p.runWith answer choices s = (.error e, t, rest)) :
    (tryCatch p handler).runWith answer choices s = (handler e).runWith answer rest t := by
  induction p generalizing choices s with
  | done result =>
    cases h
    rfl
  | call op next ih => exact ih _ h

theorem runWith_finishWith {p : Program Op Ans ε α} {last : Program Op Ans ε Unit} {result : Except ε α}
    (h : p.runWith answer choices s = (result, t, rest)) :
    (p.finishWith last).runWith answer choices s = (last >>= fun _ => done result).runWith answer rest t := by
  induction p generalizing choices s with
  | done result =>
    cases h
    rfl
  | call op next ih => exact ih _ h

theorem Ensures.runWith {p : Program Op Ans ε α}
    (h : p.Ensures (Environment.mk fun op choice s => some (answer op choice s)) (fun _ _ => True) I Q s) :
    I (p.runWith answer choices s).2.1 ∧ Q (p.runWith answer choices s).1 (p.runWith answer choices s).2.1 := by
  induction p generalizing choices s with
  | done result => exact h
  | call op next ih => exact ih _ (h.2 trivial (choices 0) _ _ rfl)

end Answers

/-! ## Reached points -/

/-- Some answers lead from a program to what is left of it. -/
inductive Reaches (env : Environment σ Op Ans ε χ) (guard : Op → σ → Prop) :
    Program Op Ans ε α → σ → Program Op Ans ε α → σ → Prop
  | refl (p : Program Op Ans ε α) (s : σ) : Reaches env guard p s p s
  | step {op : Op} {next : Except ε (Ans op) → Program Op Ans ε α} {q : Program Op Ans ε α} {s t u : σ} {choice : χ}
      {reply : Except ε (Ans op)} (allowed : guard op s) (answered : env.respond op choice s = some (reply, t))
      (rest : Reaches env guard (next reply) t q u) : Reaches env guard (call op next) s q u

abbrev Returns (env : Environment σ Op Ans ε χ) (guard : Op → σ → Prop) (p : Program Op Ans ε α) (s : σ) (a : α)
    (t : σ) : Prop := Reaches env guard p s (done (.ok a)) t

variable {t u : σ} {p q r : Program Op Ans ε α}

theorem Reaches.trans (h : Reaches env guard p s q t) (hRest : Reaches env guard q t r u) :
    Reaches env guard p s r u := by
  induction h with
  | refl => exact hRest
  | step allowed answered _ ih => exact .step allowed answered (ih hRest)

theorem Reaches.inBind (h : Reaches env guard p s q t) (f : α → Program Op Ans ε β) :
    Reaches env guard (p >>= f) s (q >>= f) t := by
  induction h with
  | refl => exact .refl _ _
  | step allowed answered _ ih => exact .step allowed answered ih

theorem Reaches.inTryCatch (h : Reaches env guard p s q t) (handler : ε → Program Op Ans ε α) :
    Reaches env guard (tryCatch p handler) s (tryCatch q handler) t := by
  induction h with
  | refl => exact .refl _ _
  | step allowed answered _ ih => exact .step allowed answered ih

theorem Reaches.andThen {a : α} {f : α → Program Op Ans ε β} {q : Program Op Ans ε β} (h : Returns env guard p s a t)
    (hNext : Reaches env guard (f a) t q u) : Reaches env guard (p >>= f) s q u :=
  (h.inBind f).trans hNext

theorem Reaches.caught {reply : Except ε α} (h : Reaches env guard p s (done reply) t) :
    Returns env guard (tryCatch (some <$> p) fun _ => pure none) s reply.toOption t := by
  refine ((h.inBind (fun a => pure (some a))).inTryCatch fun _ => pure none).trans ?_
  cases reply with
  | ok a => exact .refl _ _
  | error e => exact .refl _ _

theorem reaches_perform {op : Op} {choice : χ} {reply : Except ε (Ans op)} (hGuard : guard op s)
    (h : env.respond op choice s = some (reply, t)) : Reaches env guard (perform op) s (done reply) t :=
  .step hGuard h (.refl _ _)

theorem reaches_throwIf_bind {c : Prop} {_ : Decidable c} {e : ε} {f : Unit → Program Op Ans ε β}
    {q : Program Op Ans ε β} (hPass : ¬c) (hNext : Reaches env guard (f ()) s q t) :
    Reaches env guard (throwIf c e >>= f) s q t := by
  rw [throwIf, if_neg hPass]
  exact hNext

theorem reaches_lift_bind {x : Except ε α} {a : α} {f : α → Program Op Ans ε β} {q : Program Op Ans ε β}
    (h : x = .ok a) (hNext : Reaches env guard (f a) s q t) :
    Reaches env guard ((liftM x : Program Op Ans ε α) >>= f) s q t := by
  rw [h]
  exact hNext

end Program

/-! ## Sessions

Callers that a lock serialises: one program runs at a time, a process can stop
at any point, and the next caller finds the world as it was left. -/

structure Session (σ Op : Type) (Ans : Op → Type) (ε : Type) where
  world : σ
  active : Option (Program Op Ans ε Unit) := none

inductive SessionEvent (κ χ : Type)
  | start (call : κ)
  | advance (choice : χ)
  | stop

namespace Session

variable {σ Op : Type} {Ans : Op → Type} {ε χ κ : Type}

def step (env : Environment σ Op Ans ε χ) (program : κ → Program Op Ans ε Unit) (s : Session σ Op Ans ε) :
    SessionEvent κ χ → Option (Session σ Op Ans ε)
  | .start call => match s.active with
    | none => some { s with active := some (program call) }
    | some _ => none
  | .advance choice => match s.active with
    | some (.call op next) => (env.respond op choice s.world).map fun (reply, world) => ⟨world, some (next reply)⟩
    | some (.done _) => some { s with active := none }
    | none => none
  | .stop => some { s with active := none }

def machine (env : Environment σ Op Ans ε χ) (program : κ → Program Op Ans ε Unit) (world : σ) :
    Transition.Machine (Session σ Op Ans ε) (SessionEvent κ χ) where
  initial := { world }
  step := step env program

def Allowed (guard : Op → σ → Prop) (s : Session σ Op Ans ε) : SessionEvent κ χ → Prop
  | .advance _ => ∀ op next, s.active = some (.call op next) → guard op s.world
  | _ => True

theorem allowed_of_forall {guard : Op → σ → Prop} (h : ∀ op s, guard op s) (s : Session σ Op Ans ε)
    (event : SessionEvent κ χ) : Allowed guard s event := by
  cases event with
  | start call => trivial
  | advance choice => exact fun op _ _ => h op s.world
  | stop => trivial

variable {env : Environment σ Op Ans ε χ} {program : κ → Program Op Ans ε Unit} {guard : Op → σ → Prop}
  {I : σ → Prop}

theorem run_invariant {world : σ} (hInitial : I world)
    (hProgram : ∀ call s, I s → (program call).Ensures env guard I (fun _ _ => True) s)
    {events : List (SessionEvent κ χ)} {s : Session σ Op Ans ε}
    (run : (machine env program world).Run (Allowed guard) events s) : I s.world := by
  suffices h : I s.world ∧ ∀ p, s.active = some p → p.Ensures env guard I (fun _ _ => True) s.world from h.1
  refine run.invariant (I := fun s => I s.world ∧ ∀ p, s.active = some p →
    p.Ensures env guard I (fun _ _ => True) s.world) ?_ ?_
  · exact ⟨hInitial, fun p hp => nomatch hp⟩
  · rintro ⟨world, active⟩ event s' ⟨hWorld, hActive⟩ hAllowed hTaken
    cases event with
    | start call =>
      cases active with
      | some p => cases hTaken
      | none =>
        cases hTaken
        refine ⟨hWorld, fun p hp => ?_⟩
        cases hp
        exact hProgram call world hWorld
    | advance choice =>
      cases active with
      | none => cases hTaken
      | some p =>
        have hEnsures := hActive p rfl
        cases p with
        | done result =>
          cases hTaken
          exact ⟨hWorld, fun p hp => nomatch hp⟩
        | call op next =>
          obtain ⟨⟨reply, after⟩, hReply, rfl⟩ := Option.map_eq_some_iff.mp hTaken
          have hNext := hEnsures.2 (hAllowed op next rfl) choice reply after hReply
          refine ⟨hNext.invariant, fun p hp => ?_⟩
          cases hp
          exact hNext
    | stop =>
      cases hTaken
      exact ⟨hWorld, fun p hp => nomatch hp⟩

theorem run_of_reaches {world : σ} {events : List (SessionEvent κ χ)} {p q : Program Op Ans ε Unit} {s t : σ}
    (run : (machine env program world).Run (Allowed guard) events ⟨s, some p⟩) (h : p.Reaches env guard s q t) :
    ∃ events, (machine env program world).Run (Allowed guard) events ⟨t, some q⟩ := by
  induction h generalizing events with
  | refl => exact ⟨events, run⟩
  | @step op next q s t u choice reply allowed answered rest ih =>
    have hStep : (machine env program world).Run (Allowed guard) (events ++ [.advance choice]) ⟨t, some (next reply)⟩ := by
      refine run.next ?_ ?_
      · rintro _ _ ⟨⟩
        exact allowed
      · change (env.respond op choice s).map _ = _
        rw [answered]
        rfl
    exact ih hStep

theorem run_call {world : σ} {s t : σ} {call : κ} {q : Program Op Ans ε Unit}
    (h : ∃ events, (machine env program world).Run (Allowed guard) events ⟨s, none⟩)
    (hReaches : (program call).Reaches env guard s q t) :
    ∃ events, (machine env program world).Run (Allowed guard) events ⟨t, none⟩ := by
  obtain ⟨events, run⟩ := h
  have hStart : (machine env program world).Run (Allowed guard) (events ++ [.start call])
      ⟨s, some (program call)⟩ := run.next trivial rfl
  obtain ⟨events, run⟩ := run_of_reaches hStart hReaches
  have hStop : Allowed guard ⟨t, some q⟩ (.stop : SessionEvent κ χ) := trivial
  exact ⟨events ++ [.stop], run.next hStop rfl⟩

end Session

end Effect
