import Mathlib.Data.List.Forall2

/-!
# Computations that change a state and may throw

A thrown error does not undo the changes made before it: whoever catches the
error goes on from the changed state. Undoing is the business of the caller,
who may drop the state of a computation that threw.
-/

namespace Effect

variable {ε α β : Type}

theorem ok_bind (a : α) (f : α → Except ε β) : (Except.ok a >>= f) = f a := rfl

theorem bind_eq_ok {x : Except ε α} {f : α → Except ε β} {b : β} (h : x >>= f = .ok b) :
    ∃ a, x = .ok a ∧ f a = .ok b := by
  cases x with
  | error e => cases h
  | ok a => exact ⟨a, rfl, h⟩

theorem ite_error_eq_ok {c : Prop} [Decidable c] {e : ε} {x : Except ε α} {a : α}
    (h : (if c then .error e else x) = .ok a) : ¬c ∧ x = .ok a := by
  split at h
  · cases h
  · exact ⟨‹_›, h⟩

theorem toOption_eq_some {x : Except ε α} {a : α} (h : x.toOption = some a) : x = .ok a := by
  cases x with
  | error e => cases h
  | ok b => exact congrArg Except.ok (Option.some.inj h)

theorem mapM_eq_ok {f : α → Except ε β} {xs : List α} {ys : List β} (h : xs.mapM f = .ok ys) :
    List.Forall₂ (fun x y => f x = .ok y) xs ys := by
  induction xs generalizing ys with
  | nil =>
    cases h
    exact .nil
  | cons x xs ih =>
    rw [List.mapM_cons] at h
    obtain ⟨y, hHead, h⟩ := bind_eq_ok h
    obtain ⟨ys, hTail, h⟩ := bind_eq_ok h
    cases h
    exact .cons hHead (ih hTail)

theorem mapM_eq_pure {m : Type → Type} [Monad m] [LawfulMonad m] {f : α → m β} {g : α → β} {xs : List α}
    (h : ∀ x ∈ xs, f x = pure (g x)) : xs.mapM f = pure (xs.map g) := by
  induction xs with
  | nil => rfl
  | cons x xs ih =>
    rw [List.forall_mem_cons] at h
    rw [List.mapM_cons, h.1, ih h.2]
    simp

theorem bind_eq_ok_iff {x : Except ε α} {f : α → Except ε β} {b : β} :
    x >>= f = .ok b ↔ ∃ a, x = .ok a ∧ f a = .ok b := by
  constructor
  · exact bind_eq_ok
  · rintro ⟨a, rfl, h⟩
    exact h

theorem mapM_eq_some {f : α → Option β} {xs : List α} {ys : List β} (h : xs.mapM f = some ys) :
    List.Forall₂ (fun x y => f x = some y) xs ys := by
  induction xs generalizing ys with
  | nil =>
    cases h
    exact .nil
  | cons x xs ih =>
    rw [List.mapM_cons] at h
    obtain ⟨y, hHead, h⟩ := Option.bind_eq_some_iff.mp h
    obtain ⟨ys, hTail, h⟩ := Option.bind_eq_some_iff.mp h
    cases h
    exact .cons hHead (ih hTail)

theorem mapM_eq_ok_iff {f : α → Except ε β} {g : α → β} {p : α → Prop} {xs : List α} {ys : List β}
    (h : ∀ x ∈ xs, ∀ y, f x = .ok y ↔ p x ∧ y = g x) : xs.mapM f = .ok ys ↔ (∀ x ∈ xs, p x) ∧ ys = xs.map g := by
  induction xs generalizing ys with
  | nil => simp [pure, Except.pure, eq_comm]
  | cons x xs ih =>
    rw [List.forall_mem_cons] at h
    rw [List.mapM_cons, bind_eq_ok_iff, List.forall_mem_cons]
    constructor
    · rintro ⟨y, hHead, hRest⟩
      obtain ⟨ys', hTail, hPure⟩ := bind_eq_ok hRest
      cases hPure
      obtain ⟨hx, rfl⟩ := (h.1 y).mp hHead
      obtain ⟨hxs, rfl⟩ := (ih h.2).mp hTail
      exact ⟨⟨hx, hxs⟩, rfl⟩
    · rintro ⟨⟨hx, hxs⟩, rfl⟩
      refine ⟨g x, (h.1 _).mpr ⟨hx, rfl⟩, ?_⟩
      rw [(ih h.2).mpr ⟨hxs, rfl⟩]
      rfl

theorem forall_of_mapM {f : α → Except ε β} {p : β → Prop} {xs : List α} {ys : List β}
    (hf : ∀ x y, f x = .ok y → p y) (h : xs.mapM f = .ok ys) : ∀ y ∈ ys, p y := by
  have hAll := mapM_eq_ok h
  clear h
  induction hAll with
  | nil => exact fun _ h => nomatch h
  | cons hHead _ ih =>
    rw [List.forall_mem_cons]
    exact ⟨hf _ _ hHead, ih⟩

theorem exists_of_mapM {f : α → Except ε β} {xs : List α} {ys : List β} (h : xs.mapM f = .ok ys) :
    ∀ x ∈ xs, ∃ y, f x = .ok y := by
  have hAll := mapM_eq_ok h
  clear h
  induction hAll with
  | nil => exact fun _ h => nomatch h
  | cons hHead _ ih => exact List.forall_mem_cons.mpr ⟨⟨_, hHead⟩, ih⟩

theorem map_of_mapM {κ : Type} {f : α → Except ε β} {before : α → κ} {after : β → κ} {xs : List α} {ys : List β}
    (hf : ∀ x y, f x = .ok y → after y = before x) (h : xs.mapM f = .ok ys) : ys.map after = xs.map before := by
  have hAll := mapM_eq_ok h
  clear h
  induction hAll with
  | nil => rfl
  | cons hHead _ ih => rw [List.map_cons, List.map_cons, hf _ _ hHead, ih]

theorem forM_eq_ok {f : α → Except ε Unit} {xs : List α} : xs.forM f = .ok () ↔ ∀ x ∈ xs, f x = .ok () := by
  induction xs with
  | nil => simp [pure, Except.pure]
  | cons x xs ih =>
    rw [List.forall_mem_cons, ← ih]
    constructor
    · intro h
      obtain ⟨_, hHead, hTail⟩ := bind_eq_ok (x := f x) h
      exact ⟨hHead, hTail⟩
    · rintro ⟨hHead, hTail⟩
      calc (x :: xs).forM f = (f x >>= fun _ => xs.forM f) := rfl
        _ = .ok () := by rw [hHead]; exact hTail

def Mutation (σ ε α : Type) := σ → Except ε α × σ

namespace Mutation

variable {σ τ : Type}

def andThen (onOk : α → Mutation σ ε β) (onError : ε → Mutation σ ε β) : Except ε α × σ → Except ε β × σ
  | (.ok a, s) => onOk a s
  | (.error e, s) => onError e s

instance : Monad (Mutation σ ε) where
  pure a := fun s => (.ok a, s)
  bind x f := fun s => andThen f (fun e s => (.error e, s)) (x s)

instance : MonadExcept ε (Mutation σ ε) where
  throw e := fun s => (.error e, s)
  tryCatch x handler := fun s => andThen (fun a s => (.ok a, s)) handler (x s)

instance : MonadState σ (Mutation σ ε) where
  get := fun s => (.ok s, s)
  set s := fun _ => (.ok (), s)
  modifyGet f := fun s => (.ok (f s).1, (f s).2)

instance : MonadLift (Except ε) (Mutation σ ε) where
  monadLift x := fun s => (x, s)

def throwIf (c : Prop) [Decidable c] (e : ε) : Mutation σ ε Unit := if c then throw e else pure ()

def each (f : α → Mutation σ ε Unit) : List α → Mutation σ ε Unit
  | [] => pure ()
  | x :: xs => do
    f x
    each f xs

theorem bind_apply (x : Mutation σ ε α) (f : α → Mutation σ ε β) (s : σ) :
    (x >>= f) s = andThen f (fun e s => (.error e, s)) (x s) := rfl

theorem bind_of_ok {x : Mutation σ ε α} {f : α → Mutation σ ε β} {s t : σ} {a : α}
    (h : x s = (.ok a, t)) : (x >>= f) s = f a t := by
  rw [bind_apply, h]
  rfl

theorem bind_of_error {x : Mutation σ ε α} {f : α → Mutation σ ε β} {s t : σ} {e : ε}
    (h : x s = (.error e, t)) : (x >>= f) s = (.error e, t) := by
  rw [bind_apply, h]
  rfl

theorem get_bind (f : σ → Mutation σ ε β) (s : σ) : (get >>= f) s = f s s := rfl

theorem modify_bind (g : σ → σ) (f : Unit → Mutation σ ε β) (s : σ) : (modify g >>= f) s = f () (g s) := rfl

theorem lift_bind (a : α) (f : α → Mutation σ ε β) (s : σ) :
    ((liftM (Except.ok a : Except ε α) : Mutation σ ε α) >>= f) s = f a s := rfl

theorem lift_error_bind (e : ε) (f : α → Mutation σ ε β) (s : σ) :
    ((liftM (Except.error e : Except ε α) : Mutation σ ε α) >>= f) s = (.error e, s) := rfl

theorem bind_ok {x : Mutation σ ε α} {f : α → Mutation σ ε β} {s s' : σ} {b : β}
    (h : (x >>= f) s = (.ok b, s')) : ∃ a t, x s = (.ok a, t) ∧ f a t = (.ok b, s') := by
  rcases hRun : x s with ⟨e | a, t⟩
  · rw [bind_of_error hRun] at h
    cases h
  · rw [bind_of_ok hRun] at h
    exact ⟨a, t, rfl, h⟩

theorem pure_ok {a b : α} {s s' : σ} (h : (pure a : Mutation σ ε α) s = (.ok b, s')) : a = b ∧ s = s' := by
  cases h
  exact ⟨rfl, rfl⟩

theorem discard_ok {x : Mutation σ ε α} {s s' : σ} {u : Unit}
    (h : (do let _ ← x : Mutation σ ε Unit) s = (.ok u, s')) : ∃ a, x s = (.ok a, s') := by
  obtain ⟨a, t, hRun, hPure⟩ := bind_ok h
  obtain ⟨_, rfl⟩ := pure_ok hPure
  exact ⟨a, hRun⟩

theorem get_ok {s s' a : σ} (h : (get : Mutation σ ε σ) s = (.ok a, s')) : s = a ∧ s = s' := by
  cases h
  exact ⟨rfl, rfl⟩

theorem modify_ok {g : σ → σ} {s s' : σ} {u : Unit}
    (h : (modify g : Mutation σ ε Unit) s = (.ok u, s')) : s' = g s := by
  cases h
  rfl

theorem throw_ok {e : ε} {s s' : σ} {a : α} : ¬(throw e : Mutation σ ε α) s = (.ok a, s') := by
  rintro ⟨⟩

theorem lift_ok {x : Except ε α} {s s' : σ} {a : α}
    (h : (liftM x : Mutation σ ε α) s = (.ok a, s')) : x = .ok a ∧ s = s' := by
  cases h
  exact ⟨rfl, rfl⟩

theorem ite_ok {c : Prop} [Decidable c] {x y : Mutation σ ε α} {s s' : σ} {a : α}
    (h : (if c then x else y) s = (.ok a, s')) : c ∧ x s = (.ok a, s') ∨ ¬c ∧ y s = (.ok a, s') := by
  split at h
  · exact .inl ⟨‹_›, h⟩
  · exact .inr ⟨‹_›, h⟩

theorem throwIf_ok {c : Prop} [Decidable c] {e : ε} {s s' : σ} {u : Unit}
    (h : throwIf c e s = (.ok u, s')) : ¬c ∧ s = s' := by
  rcases ite_ok h with ⟨_, h⟩ | ⟨hc, h⟩
  · exact absurd h throw_ok
  · exact ⟨hc, (pure_ok h).2⟩

theorem throwIf_of_not {c : Prop} [Decidable c] (h : ¬c) (e : ε) (s : σ) : throwIf c e s = (.ok (), s) := by
  rw [throwIf, if_neg h]
  rfl

theorem throwIf_of {c : Prop} [Decidable c] (h : c) (e : ε) (s : σ) : throwIf c e s = (.error e, s) := by
  rw [throwIf, if_pos h]
  rfl

/-! ## What a computation leaves alone -/

/-- Every outcome, a thrown error too, leaves the observed part unchanged. -/
def Keeps (f : σ → τ) (m : Mutation σ ε α) : Prop := ∀ s, f (m s).2 = f s

variable {f : σ → τ}

theorem Keeps.of_eq {m : Mutation σ ε α} (h : m.Keeps f) {s s' : σ} {r : Except ε α}
    (hRun : m s = (r, s')) : f s' = f s := by
  have hKept := h s
  rwa [hRun] at hKept

theorem keeps_pure (a : α) : Keeps f (pure a : Mutation σ ε α) := fun _ => rfl

theorem keeps_throw (e : ε) : Keeps f (throw e : Mutation σ ε α) := fun _ => rfl

theorem keeps_get : Keeps f (get : Mutation σ ε σ) := fun _ => rfl

theorem keeps_lift (x : Except ε α) : Keeps f (liftM x : Mutation σ ε α) := fun _ => rfl

theorem keeps_modify {g : σ → σ} (h : ∀ s, f (g s) = f s) : Keeps f (modify g : Mutation σ ε Unit) := h

theorem Keeps.bind {x : Mutation σ ε α} {next : α → Mutation σ ε β} (hx : x.Keeps f)
    (hNext : ∀ a, (next a).Keeps f) : (x >>= next).Keeps f := by
  intro s
  have hFirst := hx s
  rcases hRun : x s with ⟨_ | a, t⟩
  · rw [bind_of_error hRun]
    rwa [hRun] at hFirst
  · rw [bind_of_ok hRun, hNext a t]
    rwa [hRun] at hFirst

theorem Keeps.ite {c : Prop} [Decidable c] {x y : Mutation σ ε α} (hx : x.Keeps f) (hy : y.Keeps f) :
    (if c then x else y).Keeps f := by
  split
  · exact hx
  · exact hy

theorem keeps_throwIf (c : Prop) [Decidable c] (e : ε) : Keeps f (throwIf c e) :=
  (keeps_throw e).ite (keeps_pure ())

theorem Keeps.tryCatch {x : Mutation σ ε α} {handler : ε → Mutation σ ε α} (hx : x.Keeps f)
    (hHandler : ∀ e, (handler e).Keeps f) : (tryCatch x handler).Keeps f := by
  intro s
  have hFirst := hx s
  change f (andThen (fun a s => (.ok a, s)) handler (x s)).2 = f s
  rcases hRun : x s with ⟨e | a, t⟩
  · rw [hRun] at hFirst
    exact (hHandler e t).trans hFirst
  · rwa [hRun] at hFirst

theorem Keeps.each {g : α → Mutation σ ε Unit} (h : ∀ a, (g a).Keeps f) (xs : List α) :
    (each g xs).Keeps f := by
  induction xs with
  | nil => exact keeps_pure ()
  | cons x xs ih => exact (h x).bind fun _ => ih

/-! ## What stays true through a computation -/

/-- Every outcome, a thrown error too, is again in a state with the property. -/
def Preserves (I : σ → Prop) (m : Mutation σ ε α) : Prop := ∀ s, I s → I (m s).2

variable {I : σ → Prop}

theorem Preserves.of_eq {m : Mutation σ ε α} (h : m.Preserves I) {s s' : σ} {r : Except ε α} (hI : I s)
    (hRun : m s = (r, s')) : I s' := by
  have hAfter := h s hI
  rwa [hRun] at hAfter

theorem preserves_pure (a : α) : Preserves I (pure a : Mutation σ ε α) := fun _ hI => hI

theorem preserves_throw (e : ε) : Preserves I (throw e : Mutation σ ε α) := fun _ hI => hI

theorem preserves_get : Preserves I (get : Mutation σ ε σ) := fun _ hI => hI

theorem preserves_lift (x : Except ε α) : Preserves I (liftM x : Mutation σ ε α) := fun _ hI => hI

theorem preserves_modify {g : σ → σ} (h : ∀ s, I s → I (g s)) : Preserves I (modify g : Mutation σ ε Unit) := h

theorem Preserves.bind {x : Mutation σ ε α} {next : α → Mutation σ ε β} (hx : x.Preserves I)
    (hNext : ∀ a, (next a).Preserves I) : (x >>= next).Preserves I := by
  intro s hI
  have hFirst := hx s hI
  rcases hRun : x s with ⟨_ | a, t⟩
  · rw [bind_of_error hRun]
    rwa [hRun] at hFirst
  · rw [bind_of_ok hRun]
    rw [hRun] at hFirst
    exact hNext a t hFirst

theorem Preserves.ite {c : Prop} [Decidable c] {x y : Mutation σ ε α} (hx : x.Preserves I) (hy : y.Preserves I) :
    (if c then x else y).Preserves I := by
  split
  · exact hx
  · exact hy

theorem preserves_throwIf (c : Prop) [Decidable c] (e : ε) : Preserves I (throwIf c e) :=
  (preserves_throw e).ite (preserves_pure ())

theorem Preserves.each {g : α → Mutation σ ε Unit} {xs : List α} (h : ∀ a ∈ xs, (g a).Preserves I) :
    (each g xs).Preserves I := by
  induction xs with
  | nil => exact preserves_pure ()
  | cons x xs ih =>
    rw [List.forall_mem_cons] at h
    exact h.1.bind fun _ => ih h.2

/-! ## What holds at the end of a computation from one state -/

def EndsIn (I : σ → Prop) (m : Mutation σ ε α) (s : σ) : Prop := I (m s).2

variable {s : σ} {next : α → Mutation σ ε β}

theorem endsIn_pure {a : α} (h : I s) : EndsIn I (pure a : Mutation σ ε α) s := h

theorem endsIn_modify {g : σ → σ} (h : I (g s)) : EndsIn I (modify g : Mutation σ ε Unit) s := h

theorem endsIn_get {next : σ → Mutation σ ε β} (h : EndsIn I (next s) s) : EndsIn I (get >>= next) s := h

theorem endsIn_modify_bind {g : σ → σ} {next : Unit → Mutation σ ε β} (h : EndsIn I (next ()) (g s)) :
    EndsIn I (modify g >>= next) s := h

theorem endsIn_lift {x : Except ε α} (hs : I s) (h : ∀ a, x = .ok a → EndsIn I (next a) s) :
    EndsIn I ((liftM x : Mutation σ ε α) >>= next) s := by
  cases x with
  | ok a => exact h a rfl
  | error e => exact hs

theorem endsIn_throwIf {c : Prop} [Decidable c] {e : ε} {next : Unit → Mutation σ ε β} (hs : I s)
    (h : ¬c → EndsIn I (next ()) s) : EndsIn I (throwIf c e >>= next) s := by
  by_cases hc : c
  · rwa [EndsIn, bind_of_error (throwIf_of hc e s)]
  · rw [EndsIn, bind_of_ok (throwIf_of_not hc e s)]
    exact h hc

end Mutation

end Effect
