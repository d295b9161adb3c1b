import GhostApi.Lib.Sql.Sessions

/-!
# Rely and guarantee for concurrent transactions

A protocol has an invariant of the committed rows, and says what the other
clients leave to one that holds certain locks. A program is secure when each
of its commits keeps the protocol, at whatever moment it takes place. What is
secure for every program holds in every run.
-/

namespace Sql

open Effect Transition

variable {κ : Type} {V : κ → Type} {ι γ δ ε χ Query External Note Call α β : Type} {Reply : Query → Type}
  {Answer : External → Type} {engine : Engine V ι γ δ ε χ Note Reply Answer}

structure Protocol (engine : Engine V ι γ δ ε χ Note Reply Answer) where
  Inv : Committed V γ → Prop
  /-- What the others leave to a client that owns these rows. -/
  rely : ι → (κ → Prop) → Committed V γ → Committed V γ → Prop
  refl : ∀ i owned c, rely i owned c c
  trans : ∀ {i owned c₁ c₂ c₃}, rely i owned c₁ c₂ → rely i owned c₂ c₃ → rely i owned c₁ c₃
  anti : ∀ {i owned more c₁ c₂}, (∀ k, owned k → more k) → rely i more c₁ c₂ → rely i owned c₁ c₂
  tick : ∀ {c} time, Inv c → Inv { c with clock := c.clock + time } ∧
    ∀ i owned, rely i owned c { c with clock := c.clock + time }
  outside : ∀ {c x world}, Inv c → engine.drift x c.world = some world → Inv { c with world := world } ∧
    ∀ i owned, rely i owned c { c with world := world }
  halt : ∀ {c} j, Inv c → Inv { c with world := engine.halt j c.world } ∧
    ∀ i owned, i ≠ j → rely i owned c { c with world := engine.halt j c.world }

/-- What holds when a client is about to end a transaction. -/
structure Assertion (engine : Engine V ι γ δ ε χ Note Reply Answer) where
  commit : Note → Transaction V → Server V ι γ → Prop := fun _ _ _ => True
  rollback : ε → Option (Transaction V) → Server V ι γ → Prop := fun _ _ _ => True
  free : ∀ d t s, rollback (engine.raise d) t s := by exact fun _ _ _ => trivial

def Assertion.At (A : Assertion engine) : Op Query External Note ε → Option (Transaction V) → Server V ι γ → Prop
  | .commit note, some t, s => A.commit note t s
  | .rollback cause, t, s => A.rollback cause t s
  | _, _, _ => True

namespace Protocol

variable (P : Protocol engine) (i : ι)

/-- A later moment for a client that took no step in between. -/
structure Since (s s' : Server V ι γ) : Prop where
  inv : P.Inv s'.toCommitted
  owned : ∀ {k}, s.owner k = some i → s'.owner k = some i
  rows : ∀ {k}, s.owner k = some i → s'.rows.row k = s.rows.row k
  clock : s.clock ≤ s'.clock
  rely : P.rely i (fun k => s.owner k = some i) s.toCommitted s'.toCommitted

structure Later (s s' : Server V ι γ) : Prop where
  inv : P.Inv s'.toCommitted
  clock : s.clock ≤ s'.clock
  rely : P.rely i (fun _ => False) s.toCommitted s'.toCommitted

structure Step (s s' : Server V ι γ) : Prop where
  inv : P.Inv s'.toCommitted
  rely : ∀ j owned, j ≠ i → (∀ k, owned k → s.owner k ≠ some i) → P.rely j owned s.toCommitted s'.toCommitted

variable {P i} {s s' s₁ s₂ s₃ : Server V ι γ}

theorem Since.refl (h : P.Inv s.toCommitted) : P.Since i s s := ⟨h, id, fun _ => rfl, Nat.le_refl _, P.refl _ _ _⟩

theorem Since.trans (h : P.Since i s₁ s₂) (h' : P.Since i s₂ s₃) : P.Since i s₁ s₃ where
  inv := h'.inv
  owned hk := h'.owned (h.owned hk)
  rows hk := (h'.rows (h.owned hk)).trans (h.rows hk)
  clock := Nat.le_trans h.clock h'.clock
  rely := P.trans h.rely (P.anti (fun _ hk => h.owned hk) h'.rely)

theorem Later.refl (h : P.Inv s.toCommitted) : P.Later i s s := ⟨h, Nat.le_refl _, P.refl _ _ _⟩

theorem Later.trans (h : P.Later i s₁ s₂) (h' : P.Later i s₂ s₃) : P.Later i s₁ s₃ :=
  ⟨h'.inv, Nat.le_trans h.clock h'.clock, P.trans h.rely h'.rely⟩

theorem Since.later (h : P.Since i s s') : P.Later i s s' := ⟨h.inv, h.clock, P.anti (fun _ => False.elim) h.rely⟩

theorem Since.of_committed (hInv : P.Inv s.toCommitted) (h : s'.toCommitted = s.toCommitted)
    (hOwner : ∀ {k}, s.owner k = some i → s'.owner k = some i) : P.Since i s s' := by
  refine ⟨h ▸ hInv, hOwner, fun _ => ?_, ?_, h ▸ P.refl _ _ _⟩
  · rw [h]
  · exact Nat.le_of_eq (congrArg Committed.clock h).symm

theorem Later.of_committed (hInv : P.Inv s.toCommitted) (h : s'.toCommitted = s.toCommitted) : P.Later i s s' :=
   ⟨h ▸ hInv, Nat.le_of_eq (congrArg Committed.clock h).symm, h ▸ P.refl _ _ _⟩

theorem Step.of_committed (hInv : P.Inv s.toCommitted) (h : s'.toCommitted = s.toCommitted) : P.Step i s s' :=
  ⟨h ▸ hInv, fun _ _ _ _ => h ▸ P.refl _ _ _⟩

variable [DecidableEq κ] [DecidableEq ι]

omit [DecidableEq ι] in
theorem owner_lock_of_mem {keys : List κ} {k : κ} (h : k ∈ keys) : (s.lock i keys).owner k = some i := if_pos h

omit [DecidableEq ι] in
theorem Since.lock (hInv : P.Inv s.toCommitted) (keys : List κ) : P.Since i s (s.lock i keys) := by
  refine .of_committed hInv rfl fun {k} hk => ?_
  by_cases hMem : k ∈ keys
  · exact if_pos hMem
  · exact (if_neg hMem).trans hk

omit [DecidableEq ι] in
theorem Since.after_lock {keys : List κ} (h : P.Since i (s.lock i keys) s') : P.Since i s s' where
  inv := h.inv
  owned {k} hk := h.owned (by by_cases hMem : k ∈ keys <;> simp [Server.lock, hMem, hk])
  rows {k} hk := h.rows (by by_cases hMem : k ∈ keys <;> simp [Server.lock, hMem, hk])
  clock := h.clock
  rely := P.anti (fun k hk => by by_cases hMem : k ∈ keys <;> simp [Server.lock, hMem, hk]) h.rely

/-! ## Secure programs -/

section Secure

variable (P i) (guard : Op Query External Note ε → Session V ι γ → Prop) (A : Assertion engine)

def Secure (Q : Except ε α → Option (Transaction V) → Server V ι γ → Prop) :
    Routine ε Note Reply Answer α → Option (Transaction V) → Server V ι γ → Prop
  | .done result, t, s => Q result t s
  | .call op next, t, s => ∀ s₁, P.Since i s s₁ → guard op (t, s₁) → A.At op t s₁ ∧
    ∀ choice reply t' s₂, respond engine i op choice (t, s₁) = some (reply, t', s₂) →
      P.Step i s₁ s₂ ∧ Secure Q (next reply) t' s₂

/-- The operation of a transaction since its start, when it has made these writes and has not failed. An
error ends it. -/
def Within (start : Server V ι γ) (R : α → List (Change V) → Server V ι γ → Prop) (p : Routine ε Note Reply Answer α)
    (writes : List (Change V)) (s : Server V ι γ) : Prop :=
  P.Later i start s → P.Secure i guard A (fun result t s => P.Later i start s ∧ match result with
    | .ok a => ∃ writes, t = some ⟨start.clock, writes, false⟩ ∧ R a writes s
    | .error e => ∀ s', P.Since i s s' → A.rollback e t s') p (some ⟨start.clock, writes, false⟩) s

end Secure

variable {guard : Op Query External Note ε → Session V ι γ → Prop} {A : Assertion engine}
  {Q Q' : Except ε α → Option (Transaction V) → Server V ι γ → Prop} {p : Routine ε Note Reply Answer α}
  {t : Option (Transaction V)}

theorem Secure.mono (h : P.Secure i guard A Q p t s) (hQ : ∀ result t s, Q result t s → Q' result t s) :
    P.Secure i guard A Q' p t s := by
  induction p generalizing t s with
  | done result => exact hQ result t s h
  | call op next ih =>
    intro s₁ hSince hGuard
    obtain ⟨hAt, hNext⟩ := h s₁ hSince hGuard
    refine ⟨hAt, fun choice reply t' s₂ hReply => ?_⟩
    obtain ⟨hStep, hRest⟩ := hNext choice reply t' s₂ hReply
    exact ⟨hStep, ih reply hRest⟩

theorem Secure.bind {f : α → Routine ε Note Reply Answer β}
    {Q : Except ε β → Option (Transaction V) → Server V ι γ → Prop}
    (h : P.Secure i guard A (fun result t s => match result with
      | .ok a => P.Secure i guard A Q (f a) t s
      | .error e => Q (.error e) t s) p t s) : P.Secure i guard A Q (p >>= f) t s := by
  induction p generalizing t s with
  | done result =>
    cases result with
    | ok a => exact h
    | error e => exact h
  | call op next ih =>
    intro s₁ hSince hGuard
    obtain ⟨hAt, hNext⟩ := h s₁ hSince hGuard
    refine ⟨hAt, fun choice reply t' s₂ hReply => ?_⟩
    obtain ⟨hStep, hRest⟩ := hNext choice reply t' s₂ hReply
    exact ⟨hStep, ih reply hRest⟩

theorem Secure.tryCatch {handler : ε → Routine ε Note Reply Answer α}
    (h : P.Secure i guard A (fun result t s => match result with
      | .ok a => Q (.ok a) t s
      | .error e => P.Secure i guard A Q (handler e) t s) p t s) :
    P.Secure i guard A Q (MonadExcept.tryCatch p handler) t s := by
  induction p generalizing t s with
  | done result =>
    cases result with
    | ok a => exact h
    | error e => exact h
  | call op next ih =>
    intro s₁ hSince hGuard
    obtain ⟨hAt, hNext⟩ := h s₁ hSince hGuard
    refine ⟨hAt, fun choice reply t' s₂ hReply => ?_⟩
    obtain ⟨hStep, hRest⟩ := hNext choice reply t' s₂ hReply
    exact ⟨hStep, ih reply hRest⟩

theorem Secure.since (h : P.Secure i guard A (fun _ _ _ => True) p t s) (hSince : P.Since i s s') :
    P.Secure i guard A (fun _ _ _ => True) p t s' := by
  cases p with
  | done result => trivial
  | call op next => exact fun s₁ hLater hGuard => h s₁ (hSince.trans hLater) hGuard

/-! ### Statements -/

section Statements

variable {f : β → Routine ε Note Reply Answer α} {txn : Transaction V}

theorem secure_query {q : Query} {f : Reply q → Routine ε Note Reply Answer α} (hOpen : txn.aborted = false)
    (hFail : ∀ s₁ d, P.Since i s s₁ → Q (.error (engine.raise d)) (some { txn with aborted := true }) s₁)
    (h : ∀ s₁ a, P.Since i s s₁ → guard (.query q) (some txn, s₁) →
      (∀ k ∈ (engine.execute q txn.now (s₁.busy i) (s₁.rows.apply txn.writes)).keys, s₁.busy i k = false) →
      (engine.execute q txn.now (s₁.busy i) (s₁.rows.apply txn.writes)).reply = .ok a →
      P.Secure i guard A Q (f a) (some { txn with writes := txn.writes ++
          (engine.execute q txn.now (s₁.busy i) (s₁.rows.apply txn.writes)).writes })
        (s₁.lock i (engine.execute q txn.now (s₁.busy i) (s₁.rows.apply txn.writes)).keys)) :
    P.Secure i guard A Q (query q >>= f) (some txn) s := by
  obtain ⟨now, writes, _⟩ := txn
  cases hOpen
  intro s₁ hSince hGuard
  refine ⟨trivial, fun choice reply t' s₂ hReply => ?_⟩
  cases choice with
  | ok =>
    simp only [respond, respondQuery, runQuery, Bool.false_eq_true, if_false] at hReply
    split at hReply
    · cases hReply
    · rename_i hBusy
      rw [List.any_eq_true, not_exists] at hBusy
      have hFree : ∀ k ∈ (engine.execute q now (s₁.busy i) (s₁.rows.apply writes)).keys, s₁.busy i k = false :=
        fun k hk => Bool.eq_false_iff.mpr fun hOwned => hBusy k ⟨hk, hOwned⟩
      split at hReply
      · rename_i a hResult
        cases hReply
        exact ⟨.of_committed hSince.inv rfl, h s₁ a hSince hGuard hFree hResult⟩
      · cases hReply
        exact ⟨.of_committed hSince.inv rfl, hFail _ _ hSince⟩
  | fail d =>
    cases hReply
    exact ⟨.of_committed hSince.inv rfl, hFail _ _ hSince⟩
  | lost d => cases hReply
  | outside c => cases hReply

theorem secure_external {x : External} {f : Answer x → Routine ε Note Reply Answer α}
    (h : ∀ s₁ c reply world, P.Since i s s₁ → guard (.external x) (t, s₁) →
      engine.answer x i c s₁.world = some (reply, world) →
      P.Step i s₁ { s₁ with world := world } ∧ match reply with
        | .ok a => P.Secure i guard A Q (f a) t { s₁ with world := world }
        | .error e => Q (.error e) t { s₁ with world := world }) :
    P.Secure i guard A Q (external x >>= f) t s := by
  intro s₁ hSince hGuard
  refine ⟨by cases t <;> trivial, fun choice reply t' s₂ hReply => ?_⟩
  cases choice with
  | outside c =>
    obtain ⟨⟨reply, world⟩, hAnswer, hSame⟩ := Option.map_eq_some_iff.mp hReply
    cases hSame
    obtain ⟨hStep, hNext⟩ := h s₁ c reply world hSince hGuard hAnswer
    refine ⟨hStep, ?_⟩
    cases reply with
    | ok a => exact hNext
    | error e => exact hNext
  | ok => cases hReply
  | fail d => cases hReply
  | lost d => cases hReply

end Statements

/-! ### The operation of a transaction -/

section Operations

variable {start : Server V ι γ} {writes : List (Change V)} {R R' : α → List (Change V) → Server V ι γ → Prop}

theorem Within.pure {a : α} (h : R a writes s) : P.Within i guard A start R (Pure.pure a) writes s :=
  fun hLater => ⟨hLater, writes, rfl, h⟩

theorem Within.throw {e : ε} (h : ∀ s', P.Since i s s' → A.rollback e (some ⟨start.clock, writes, false⟩) s') :
    P.Within i guard A start R (MonadExcept.throw e) writes s := fun hLater => ⟨hLater, h⟩

theorem Within.mono (h : P.Within i guard A start R p writes s) (hR : ∀ a writes s, R a writes s → R' a writes s) :
    P.Within i guard A start R' p writes s := by
  intro hLater
  refine (h hLater).mono ?_
  rintro result t s ⟨hLater, hResult⟩
  refine ⟨hLater, ?_⟩
  cases result with
  | ok a =>
    obtain ⟨writes, hOpen, hDone⟩ := hResult
    exact ⟨writes, hOpen, hR a writes s hDone⟩
  | error e => exact hResult

theorem Within.bind {f : α → Routine ε Note Reply Answer β} {R' : β → List (Change V) → Server V ι γ → Prop}
    (h : P.Within i guard A start R p writes s)
    (hNext : ∀ a writes s, R a writes s → P.Within i guard A start R' (f a) writes s) :
    P.Within i guard A start R' (p >>= f) writes s := by
  intro hLater
  refine .bind ((h hLater).mono ?_)
  rintro result t s ⟨hLater, hResult⟩
  cases result with
  | ok a =>
    obtain ⟨writes, rfl, hDone⟩ := hResult
    exact hNext a writes s hDone hLater
  | error e => exact ⟨hLater, hResult⟩

theorem Within.query {q : Query} {f : Reply q → Routine ε Note Reply Answer α}
    (h : ∀ s₁ a outcome, P.Since i s s₁ → guard (.query q) (some ⟨start.clock, writes, false⟩, s₁) →
      engine.execute q start.clock (s₁.busy i) (s₁.rows.apply writes) = outcome →
      (∀ k ∈ outcome.keys, s₁.busy i k = false) → outcome.reply = .ok a →
      P.Within i guard A start R (f a) (writes ++ outcome.writes) (s₁.lock i outcome.keys)) :
    P.Within i guard A start R (Sql.query q >>= f) writes s := by
  intro hLater
  refine secure_query rfl ?_ ?_
  · exact fun s₁ d hSince => ⟨hLater.trans hSince.later, fun _ _ => A.free _ _ _⟩
  · intro s₁ a hSince hGuard hFree hReply
    exact h s₁ a _ hSince hGuard rfl hFree hReply (hLater.trans (hSince.trans (.lock hSince.inv _)).later)

omit [DecidableEq ι] in
@[simp] theorem lock_nil : s.lock i [] = s := by
  have hOwner : (fun k => if k ∈ ([] : List κ) then some i else s.owner k) = s.owner := by
    funext k
    exact if_neg List.not_mem_nil
  rw [Server.lock, hOwner]

theorem Within.look {q : Query} {f : Reply q → Routine ε Note Reply Answer α} (value : Rows V → Reply q)
    (hRead : ∀ busy rows, engine.execute q start.clock busy rows = { reply := .ok (value rows) })
    (h : ∀ s₁, P.Since i s s₁ → P.Within i guard A start R (f (value (s₁.rows.apply writes))) writes s₁) :
    P.Within i guard A start R (Sql.query q >>= f) writes s := by
  refine .query fun s₁ a outcome hSince _ hRun _ hReply => ?_
  rw [hRead] at hRun
  subst hRun
  cases hReply
  have hKeys : ({ reply := .ok (value (s₁.rows.apply writes)) } : Outcome V δ (Reply q)).keys = [] := rfl
  rw [hKeys, lock_nil, List.append_nil]
  exact h s₁ hSince

theorem Within.last {q : Query} {R : Reply q → List (Change V) → Server V ι γ → Prop}
    (h : ∀ s₁ a outcome, P.Since i s s₁ → guard (.query q) (some ⟨start.clock, writes, false⟩, s₁) →
      engine.execute q start.clock (s₁.busy i) (s₁.rows.apply writes) = outcome →
      (∀ k ∈ outcome.keys, s₁.busy i k = false) → outcome.reply = .ok a →
      R a (writes ++ outcome.writes) (s₁.lock i outcome.keys)) :
    P.Within i guard A start R (Sql.query q) writes s := by
  have hLast : (Sql.query q : Routine ε Note Reply Answer (Reply q)) = Sql.query q >>= Pure.pure := by
    change Program.call _ _ = Program.call _ _
    congr 1
    funext reply
    cases reply <;> rfl
  rw [hLast]
  exact .query fun s₁ a outcome hSince hGuard hRun hFree hReply => .pure (h s₁ a outcome hSince hGuard hRun hFree hReply)

theorem Within.external {x : External} {f : Answer x → Routine ε Note Reply Answer α}
    (h : ∀ s₁ c reply world, P.Since i s s₁ → guard (.external x) (some ⟨start.clock, writes, false⟩, s₁) →
      engine.answer x i c s₁.world = some (reply, world) →
      P.Step i s₁ { s₁ with world := world } ∧ P.Later i s₁ { s₁ with world := world } ∧ match reply with
        | .ok a => P.Within i guard A start R (f a) writes { s₁ with world := world }
        | .error e => ∀ s', P.Since i { s₁ with world := world } s' →
            A.rollback e (some ⟨start.clock, writes, false⟩) s') :
    P.Within i guard A start R (Sql.external x >>= f) writes s := by
  intro hLater
  refine secure_external fun s₁ c reply world hSince hGuard hAnswer => ?_
  obtain ⟨hStep, hOwn, hNext⟩ := h s₁ c reply world hSince hGuard hAnswer
  have hLater := (hLater.trans hSince.later).trans hOwn
  refine ⟨hStep, ?_⟩
  cases reply with
  | ok a => exact hNext hLater
  | error e => exact ⟨hLater, hNext⟩

theorem Within.throwIf {c : Prop} {_ : Decidable c} {e : ε} {f : Unit → Routine ε Note Reply Answer α}
    (hThrow : c → ∀ s', P.Since i s s' → A.rollback e (some ⟨start.clock, writes, false⟩) s')
    (hPass : ¬c → P.Within i guard A start R (f ()) writes s) :
    P.Within i guard A start R (Program.throwIf c e >>= f) writes s := by
  rw [Program.throwIf]
  split
  · exact .throw (hThrow ‹_›)
  · exact hPass ‹_›

theorem Within.lift {x : Except ε β} {f : β → Routine ε Note Reply Answer α}
    (hError : ∀ e, x = .error e → ∀ s', P.Since i s s' → A.rollback e (some ⟨start.clock, writes, false⟩) s')
    (hOk : ∀ a, x = .ok a → P.Within i guard A start R (f a) writes s) :
    P.Within i guard A start R ((liftM x : Routine ε Note Reply Answer β) >>= f) writes s := by
  cases hResult : x with
  | error e => exact .throw (hError e hResult)
  | ok a => exact hOk a hResult

end Operations

/-! ### Transactions -/

omit [DecidableEq κ] in
theorem Later.release (h : P.Inv s.toCommitted) : P.Later i s (s.release i) := .of_committed h rfl

theorem secure_rollback {e : ε} (hAt : ∀ s', P.Since i s s' → A.rollback e t s')
    (hError : ∀ s', P.Later i s s' → Q (.error e) none s') :
    P.Secure i guard A Q (do
      MonadExcept.tryCatch (Program.perform (Op.rollback e)) fun _ => pure ()
      throw e : Routine ε Note Reply Answer α) t s := by
  refine .bind (.tryCatch ?_)
  intro s₁ hSince _
  refine ⟨hAt s₁ hSince, fun choice reply t' s₂ hReply => ?_⟩
  have hEnd : P.Step i s₁ (s₁.release i) ∧ Q (.error e) none (s₁.release i) :=
    ⟨.of_committed hSince.inv rfl, hError _ (hSince.later.trans (.release hSince.inv))⟩
  cases choice with
  | ok =>
    cases hReply
    exact hEnd
  | fail d =>
    cases hReply
    exact hEnd
  | lost d => cases hReply
  | outside c => cases hReply

variable (P i guard A) in
/-- A transaction with these writes can commit at any later moment: its assertion holds, the commit keeps the
protocol, and what follows holds. -/
def Closes (start : Server V ι γ) (note : Note) (Done : Server V ι γ → Prop) (writes : List (Change V))
    (s : Server V ι γ) : Prop :=
  ∀ s₁, P.Since i s s₁ → guard (.commit note) (some ⟨start.clock, writes, false⟩, s₁) →
    A.commit note ⟨start.clock, writes, false⟩ s₁ ∧ (engine.deferred writes s₁.rows = none →
      P.Step i s₁ (s₁.commit engine i writes note) ∧ Done (s₁.commit engine i writes note))

theorem Closes.since {start : Server V ι γ} {note : Note} {Done : Server V ι γ → Prop} {writes : List (Change V)}
    (h : P.Closes i guard A start note Done writes s) (hSince : P.Since i s s') :
    P.Closes i guard A start note Done writes s' := fun s₁ hLater hGuard => h s₁ (hSince.trans hLater) hGuard

theorem secure_transaction {note : α → Note} {operation : Routine ε Note Reply Answer α}
    (hOperation : ∀ s₁, P.Later i s s₁ → P.Within i guard A s₁ (fun a => P.Closes i guard A s₁ (note a) fun s₂ =>
      Q (.ok a) none s₂ ∧ ∀ e s₃, P.Later i s₂ s₃ → Q (.error e) none s₃) operation [] s₁)
    (hError : ∀ e s₁, P.Later i s s₁ → Q (.error e) none s₁) :
    P.Secure i guard A Q (transaction note operation) none s := by
  have hFree : ∀ d s₂, P.Later i s s₂ → P.Secure i guard A Q (do
      MonadExcept.tryCatch (Program.perform (Op.rollback (engine.raise d))) fun _ => pure ()
      throw (engine.raise d) : Routine ε Note Reply Answer α) none s₂ :=
    fun d s₂ hLater => secure_rollback (fun _ _ => A.free _ _ _) fun s' hRest => hError _ s' (hLater.trans hRest)
  refine .tryCatch (.bind ?_)
  intro s₁ hSince _
  refine ⟨trivial, fun choice reply t' s₂ hReply => ?_⟩
  cases choice with
  | fail d =>
    cases hReply
    exact ⟨.of_committed hSince.inv rfl, hFree d _ hSince.later⟩
  | lost d => cases hReply
  | outside c => cases hReply
  | ok =>
    cases hReply
    refine ⟨.of_committed hSince.inv rfl, .bind ((hOperation s₁ hSince.later (.refl hSince.inv)).mono ?_)⟩
    rintro result t s₂ ⟨hLater, hResult⟩
    have hLater := hSince.later.trans hLater
    cases result with
    | error e => exact secure_rollback hResult fun s' hRest => hError e s' (hLater.trans hRest)
    | ok a =>
      obtain ⟨writes, rfl, hCommit⟩ := hResult
      refine .bind ?_
      intro s₃ hSince₃ hGuard
      obtain ⟨hAt, hDone⟩ := hCommit s₃ hSince₃ hGuard
      have hRelease := hLater.trans (hSince₃.later.trans (.release hSince₃.inv))
      refine ⟨hAt, fun choice reply t' s₄ hReply => ?_⟩
      cases choice with
      | fail d =>
        cases hReply
        exact ⟨.of_committed hSince₃.inv rfl, hFree d _ hRelease⟩
      | outside c => cases hReply
      | ok =>
        simp only [respond, respondCommit, runCommit, Bool.false_eq_true, if_false] at hReply
        split at hReply
        · cases hReply
          exact ⟨.of_committed hSince₃.inv rfl, hFree _ _ hRelease⟩
        · rename_i hDeferred
          cases hReply
          obtain ⟨hStep, ⟨hOk, _⟩⟩ := hDone hDeferred
          exact ⟨hStep, hOk⟩
      | lost d =>
        simp only [respond, respondCommit, runCommit, Bool.false_eq_true, if_false] at hReply
        split at hReply
        · cases hReply
          exact ⟨.of_committed hSince₃.inv rfl, hFree _ _ hRelease⟩
        · rename_i hDeferred
          cases hReply
          obtain ⟨hStep, ⟨_, hLost⟩⟩ := hDone hDeferred
          exact ⟨hStep, secure_rollback (fun _ _ => A.free _ _ _) (hLost _)⟩

end Protocol

end Sql
