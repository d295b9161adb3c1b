import GhostApi.Lib.Sql.Interference

/-!
# Programs whose statements write by a rule

Where it does not matter in which order a program makes its statements, it is
secure as soon as each of them keeps a rule for the writes of a transaction
that is enough for a commit. A rule that compares the old and the new version
of each row is kept by everything that a transaction owns.
-/

namespace Sql.Protocol

open Effect Transition

variable {κ : Type} {V : κ → Type} {ι γ δ ε χ Query External Note Call α β : Type} {Reply : Query → Type}
  {Answer : External → Type} {engine : Engine V ι γ δ ε χ Note Reply Answer}

/-! ## The calls of a program -/

def Each (K : Op Query External Note ε → Prop) : Routine ε Note Reply Answer α → Prop
  | .done _ => True
  | .call op next => K op ∧ ∀ reply, Each K (next reply)

section Each

variable {K : Op Query External Note ε → Prop} {p : Routine ε Note Reply Answer α}

theorem each_pure (a : α) : Each K (Pure.pure a : Routine ε Note Reply Answer α) := trivial

theorem each_throw (e : ε) : Each K (throw e : Routine ε Note Reply Answer α) := trivial

theorem Each.bind {f : α → Routine ε Note Reply Answer β} (h : Each K p) (hNext : ∀ a, Each K (f a)) :
    Each K (p >>= f) := by
  induction p with
  | done result =>
    cases result with
    | ok a => exact hNext a
    | error e => trivial
  | call op next ih => exact ⟨h.1, fun reply => ih reply (h.2 reply)⟩

theorem Each.tryCatch {handler : ε → Routine ε Note Reply Answer α} (h : Each K p)
    (hHandler : ∀ e, Each K (handler e)) : Each K (MonadExcept.tryCatch p handler) := by
  induction p with
  | done result =>
    cases result with
    | ok a => trivial
    | error e => exact hHandler e
  | call op next ih => exact ⟨h.1, fun reply => ih reply (h.2 reply)⟩

theorem each_perform {op : Op Query External Note ε} (h : K op) :
    Each K (Program.perform op : Routine ε Note Reply Answer (op.Result Reply Answer)) := ⟨h, fun _ => trivial⟩

theorem each_query {q : Query} (h : K (.query q)) : Each K (query q : Routine ε Note Reply Answer (Reply q)) :=
  each_perform h

theorem each_external {x : External} (h : K (.external x)) :
    Each K (external x : Routine ε Note Reply Answer (Answer x)) := each_perform h

theorem each_throwIf {c : Prop} {_ : Decidable c} (e : ε) :
    Each K (Program.throwIf c e : Routine ε Note Reply Answer Unit) := by
  unfold Program.throwIf
  split <;> trivial

theorem each_transaction {note : α → Note} (hStart : K .start) (hCommit : ∀ a, K (.commit (note a)))
    (hRollback : ∀ e, K (.rollback e)) (h : Each K p) : Each K (transaction note p) := by
  refine .tryCatch ?_ fun e => ?_
  · exact (each_perform hStart).bind fun _ => h.bind fun a => (each_perform (hCommit a)).bind fun _ => each_pure a
  · exact ((each_perform (hRollback e)).tryCatch fun _ => each_pure ()).bind fun _ => each_throw e

end Each

/-! ## Rules for writes -/

variable [DecidableEq κ] [DecidableEq ι]

/-- A rule that the statements of a kind keep and that is enough to commit. -/
structure Rule (P : Protocol engine) (i : ι) (K : Op Query External Note ε → Prop)
    (W : List (Change V) → Server V ι γ → Prop) : Prop where
  nil : ∀ {s}, P.Inv s.toCommitted → W [] s
  since : ∀ {writes s s'}, W writes s → P.Since i s s' → W writes s'
  query : ∀ {q now writes s a outcome}, K (.query q) → P.Inv s.toCommitted → W writes s →
    engine.execute q now (s.busy i) (s.rows.apply writes) = outcome → (∀ k ∈ outcome.keys, s.busy i k = false) →
    outcome.reply = .ok a → W (writes ++ outcome.writes) (s.lock i outcome.keys)
  commit : ∀ {note writes s}, K (.commit note) → P.Inv s.toCommitted → W writes s →
    engine.deferred writes s.rows = none → P.Step i s (s.commit engine i writes note)
  external : ∀ {x c s reply world}, K (.external x) → P.Inv s.toCommitted →
    engine.answer x i c s.world = some (reply, world) →
    P.Step i s { s with world := world } ∧ ∀ writes, W writes s → W writes { s with world := world }

theorem Rule.secure {P : Protocol engine} {i : ι} {K : Op Query External Note ε → Prop}
    {W : List (Change V) → Server V ι γ → Prop} {guard : Op Query External Note ε → Session V ι γ → Prop}
    {A : Assertion engine} (h : Rule P i K W) (hAt : ∀ {op t s}, K op → A.At op t s)
    {p : Routine ε Note Reply Answer α} (hEach : Each K p) {txn : Option (Transaction V)} {s : Server V ι γ}
    (hTxn : ∀ t, txn = some t → t.aborted = false → W t.writes s) :
    P.Secure i guard A (fun _ _ _ => True) p txn s := by
  induction p generalizing txn s with
  | done result => trivial
  | call op next ih =>
    intro s₁ hSince _
    obtain ⟨hKind, hNext⟩ := hEach
    have hTxn₁ : ∀ t, txn = some t → t.aborted = false → W t.writes s₁ :=
      fun t ht hOpen => h.since (hTxn t ht hOpen) hSince
    have hNone : ∀ s₂ : Server V ι γ, ∀ t : Transaction V, none = some t → t.aborted = false → W t.writes s₂ :=
      fun _ _ h => nomatch h
    refine ⟨hAt hKind, fun choice reply t' s₂ hReply => ?_⟩
    cases op with
    | start =>
      cases txn with
      | some t => cases choice <;> cases hReply
      | none =>
        cases choice with
        | ok =>
          cases hReply
          refine ⟨.of_committed hSince.inv rfl, ih _ (hNext _) ?_⟩
          rintro t ⟨⟩ _
          exact h.nil hSince.inv
        | fail d =>
          cases hReply
          exact ⟨.of_committed hSince.inv rfl, ih _ (hNext _) (hNone _)⟩
        | lost d => cases hReply
        | outside c => cases hReply
    | query q =>
      cases txn with
      | none => cases choice <;> cases hReply
      | some t =>
        obtain ⟨now, writes, aborted⟩ := t
        cases choice with
        | ok =>
          simp only [respond, respondQuery, runQuery] at hReply
          split at hReply
          · cases hReply
            exact ⟨.of_committed hSince.inv rfl, ih _ (hNext _) hTxn₁⟩
          · rename_i hOpen
            split at hReply
            · cases hReply
            · rename_i hBusy
              rw [List.any_eq_true, not_exists] at hBusy
              split at hReply
              · rename_i hResult
                cases hReply
                refine ⟨.of_committed hSince.inv rfl, ih _ (hNext _) ?_⟩
                rintro t ⟨⟩ _
                exact h.query hKind hSince.inv (hTxn₁ _ rfl (Bool.eq_false_iff.mpr hOpen)) rfl
                  (fun k hk => Bool.eq_false_iff.mpr fun hOwned => hBusy k ⟨hk, hOwned⟩) hResult
              · cases hReply
                refine ⟨.of_committed hSince.inv rfl, ih _ (hNext _) ?_⟩
                rintro t ⟨⟩ ⟨⟩
        | fail d =>
          cases hReply
          refine ⟨.of_committed hSince.inv rfl, ih _ (hNext _) ?_⟩
          rintro t ⟨⟩ ⟨⟩
        | lost d => cases hReply
        | outside c => cases hReply
    | commit note =>
      have hEnd : ∀ {answered : Except ε Unit} {t : Transaction V}, txn = some t →
          runCommit engine i note answered t s₁ = some (reply, t', s₂) → P.Step i s₁ s₂ ∧ t' = none := by
        intro answered t hOpen hRun
        unfold runCommit at hRun
        split at hRun
        · cases hRun
          exact ⟨.of_committed hSince.inv rfl, rfl⟩
        · rename_i hAborted
          split at hRun
          · cases hRun
            exact ⟨.of_committed hSince.inv rfl, rfl⟩
          · rename_i hDeferred
            cases hRun
            exact ⟨h.commit hKind hSince.inv (hTxn₁ t hOpen (Bool.eq_false_iff.mpr hAborted)) hDeferred, rfl⟩
      cases txn with
      | none => cases choice <;> cases hReply
      | some t =>
        have hDone : P.Step i s₁ s₂ ∧ t' = none := by
          cases choice with
          | ok => exact hEnd rfl hReply
          | lost d => exact hEnd rfl hReply
          | fail d =>
            cases hReply
            exact ⟨.of_committed hSince.inv rfl, rfl⟩
          | outside c => cases hReply
        obtain ⟨hStep, rfl⟩ := hDone
        exact ⟨hStep, ih _ (hNext _) (hNone _)⟩
    | rollback cause =>
      cases choice with
      | ok =>
        cases hReply
        exact ⟨.of_committed hSince.inv rfl, ih _ (hNext _) (hNone _)⟩
      | fail d =>
        cases hReply
        exact ⟨.of_committed hSince.inv rfl, ih _ (hNext _) (hNone _)⟩
      | lost d => cases hReply
      | outside c => cases hReply
    | external x =>
      cases choice with
      | outside c =>
        obtain ⟨⟨answered, world⟩, hAnswer, hSame⟩ := Option.map_eq_some_iff.mp hReply
        cases hSame
        obtain ⟨hStep, hKeeps⟩ := h.external hKind hSince.inv hAnswer
        exact ⟨hStep, ih _ (hNext _) fun t ht hOpen => hKeeps _ (hTxn₁ t ht hOpen)⟩
      | ok => cases hReply
      | fail d => cases hReply
      | lost d => cases hReply

/-! ## Rules for rows -/

section Rows

variable (same : (k : κ) → Option (V k) → Option (V k) → Prop)

/-- The writes of a transaction, each to a row that it owns, leave each row as it may be left. -/
def Keeps (i : ι) (writes : List (Change V)) (s : Server V ι γ) : Prop :=
  (∀ change ∈ writes, s.owner change.key = some i) ∧ ∀ k, same k (s.rows.row k) ((s.rows.apply writes).row k)

variable {same} {P : Protocol engine} {i : ι} {writes : List (Change V)} {s s' : Server V ι γ}

omit [DecidableEq ι] in
theorem Keeps.since (hRefl : ∀ k v, same k v v) (h : Keeps same i writes s) (hSince : P.Since i s s') :
    Keeps same i writes s' := by
  refine ⟨fun change hMem => hSince.owned (h.1 change hMem), fun k => ?_⟩
  by_cases hWritten : ∃ change ∈ writes, change.key = k
  · have hView : (s'.rows.apply writes).row k = (s.rows.apply writes).row k := Rows.apply_of_written hWritten
    rw [hView]
    obtain ⟨change, hMem, rfl⟩ := hWritten
    rw [hSince.rows (h.1 change hMem)]
    exact h.2 change.key
  · rw [Rows.apply_of_unwritten fun change hMem hKey => hWritten ⟨change, hMem, hKey⟩]
    exact hRefl k _

theorem keeps_rule {K : Op Query External Note ε → Prop} (hRefl : ∀ k v, same k v v)
    (hTrans : ∀ k v₁ v₂ v₃, same k v₁ v₂ → same k v₂ v₃ → same k v₁ v₃)
    (hQuery : ∀ {q now busy rows a outcome}, K (.query q) → engine.execute q now busy rows = outcome →
      outcome.reply = .ok a → ∀ k, same k (rows.row k) ((rows.apply outcome.writes).row k))
    (hCommit : ∀ {note writes s}, K (.commit note) → P.Inv s.toCommitted → Keeps same i writes s →
      engine.deferred writes s.rows = none → P.Step i s (s.commit engine i writes note))
    (hExternal : ∀ {x c s reply world}, K (.external x) → P.Inv s.toCommitted →
      engine.answer x i c s.world = some (reply, world) → P.Step i s { s with world := world }) :
    Rule P i K (Keeps same i) where
  nil _ := ⟨fun _ h => (nomatch h), fun k => hRefl k _⟩
  since h hSince := h.since hRefl hSince
  query {q now writes s a outcome} hKind hInv h hRun _ hReply := by
    refine ⟨fun change hMem => ?_, fun k => ?_⟩
    · rcases List.mem_append.mp hMem with hMem | hMem
      · exact (Since.lock hInv outcome.keys).owned (h.1 change hMem)
      · exact owner_lock_of_mem (List.mem_append_right _ (List.mem_map_of_mem hMem))
    · rw [Rows.apply_append]
      exact hTrans k _ _ _ (h.2 k) (hQuery hKind hRun hReply k)
  commit hKind hInv h hDeferred := hCommit hKind hInv h hDeferred
  external hKind hInv hAnswer := ⟨hExternal hKind hInv hAnswer, fun _ h => h⟩

end Rows

end Sql.Protocol
