import GhostApi.Lib.Sql.Sessions

/-!
# One transaction whose statements may fail

A client is alone, but every call to the database may fail. After a failed
statement every further one fails until the transaction ends. A commit whose
answer is lost is left out: whoever gets an error knows that nothing was
changed.
-/

namespace Sql

open Effect

variable {κ : Type} {V : κ → Type} {ι γ δ ε χ Query External Note α β : Type} {Reply : Query → Type}
  {Answer : External → Type} [DecidableEq κ] [DecidableEq ι]

def answered (engine : Engine V ι γ δ ε χ Note Reply Answer) (i : ι) :
    Environment (Session V ι γ) (Op Query External Note ε) (Op.Result Reply Answer) ε (Choice δ χ) where
  respond op choice session := match choice with
    | .lost _ => none
    | .ok => respond engine i op .ok session
    | .fail d => respond engine i op (.fail d) session
    | .outside c => respond engine i op (.outside c) session

/-- What holds at the end of an operation of an open transaction, however its statements go. -/
def Operates (engine : Engine V ι γ δ ε χ Note Reply Answer) (i : ι) (rows : Rows V) (Q : Except ε α → Transaction V → Prop)
    (p : Routine ε Note Reply Answer α) (t : Transaction V) : Prop :=
  ∀ s : Server V ι γ, s.rows = rows → p.Ensures (answered engine i) (fun _ _ => True) (fun session => session.2.rows = rows)
    (fun result session => ∃ t, session.1 = some t ∧ Q result t) (some t, s)

namespace Operates

variable {engine : Engine V ι γ δ ε χ Note Reply Answer} {i : ι} {rows : Rows V} {Q Q' : Except ε α → Transaction V → Prop}
  {p : Routine ε Note Reply Answer α} {t : Transaction V}

theorem done {result : Except ε α} (h : Q result t) : Operates engine i rows Q (Program.done result) t :=
  fun _ hRows => ⟨hRows, t, rfl, h⟩

theorem mono (h : Operates engine i rows Q p t) (hQ : ∀ result t, Q result t → Q' result t) : Operates engine i rows Q' p t := by
  intro s hRows
  refine (h s hRows).mono (fun _ hSame => hSame) ?_
  rintro result session _ ⟨t, hOpen, hEnd⟩
  exact ⟨t, hOpen, hQ result t hEnd⟩

theorem bind {f : α → Routine ε Note Reply Answer β} {Q' : Except ε β → Transaction V → Prop} (h : Operates engine i rows Q p t)
    (hError : ∀ e t, Q (.error e) t → Q' (.error e) t) (hNext : ∀ a t, Q (.ok a) t → Operates engine i rows Q' (f a) t) :
    Operates engine i rows Q' (p >>= f) t := by
  intro s hRows
  refine (h s hRows).andThen (fun _ hSame => hSame) ?_ ?_
  · rintro e session _ ⟨t, hOpen, hEnd⟩
    exact ⟨t, hOpen, hError e t hEnd⟩
  · rintro a ⟨txn, server⟩ hSame ⟨t, hOpen, hEnd⟩
    cases hOpen
    exact hNext a t hEnd server hSame

theorem tryCatch {handler : ε → Routine ε Note Reply Answer α} (h : Operates engine i rows Q p t)
    (hOk : ∀ a t, Q (.ok a) t → Q' (.ok a) t) (hError : ∀ e t, Q (.error e) t → Operates engine i rows Q' (handler e) t) :
    Operates engine i rows Q' (MonadExcept.tryCatch p handler) t := by
  intro s hRows
  refine .tryCatch ((h s hRows).mono (fun _ hSame => hSame) ?_)
  rintro result ⟨txn, server⟩ hSame ⟨t, hOpen, hEnd⟩
  cases hOpen
  cases result with
  | ok a => exact ⟨t, rfl, hOk a t hEnd⟩
  | error e => exact hError e t hEnd server hSame

theorem throwIf {c : Prop} {_ : Decidable c} {e : ε} {f : Unit → Routine ε Note Reply Answer α} (hThrow : c → Q (.error e) t)
    (hPass : ¬c → Operates engine i rows Q (f ()) t) : Operates engine i rows Q (Program.throwIf c e >>= f) t := by
  rw [Program.throwIf]
  split
  · exact done (hThrow ‹_›)
  · exact hPass ‹_›

theorem query {q : Query} {f : Reply q → Routine ε Note Reply Answer α} (hOpen : t.aborted = false)
    (hFail : ∀ d, Q (.error (engine.raise d)) { t with aborted := true })
    (h : ∀ busy a outcome, engine.execute q t.now busy (rows.apply t.writes) = outcome → outcome.reply = .ok a →
      Operates engine i rows Q (f a) { t with writes := t.writes ++ outcome.writes }) :
    Operates engine i rows Q (Sql.query q >>= f) t := by
  obtain ⟨now, writes, _⟩ := t
  cases hOpen
  rintro s rfl
  refine ⟨rfl, fun _ choice reply session hReply => ?_⟩
  cases choice with
  | ok =>
    simp only [answered, respond, respondQuery, runQuery, Bool.false_eq_true, if_false] at hReply
    split at hReply
    · cases hReply
    · split at hReply
      · rename_i a hResult
        cases hReply
        exact h _ a _ rfl hResult (s.lock i _) rfl
      · cases hReply
        exact done (hFail _) s rfl
  | fail d =>
    cases hReply
    exact done (hFail d) s rfl
  | lost d => cases hReply
  | outside c => cases hReply

theorem query_read {q : Query} {f : Reply q → Routine ε Note Reply Answer α} (hOpen : t.aborted = false)
    (hNone : ∀ busy, (engine.execute q t.now busy (rows.apply t.writes)).writes = [])
    (hFail : ∀ d, Q (.error (engine.raise d)) { t with aborted := true }) (h : ∀ a, Operates engine i rows Q (f a) t) :
    Operates engine i rows Q (Sql.query q >>= f) t := by
  refine query hOpen hFail fun busy a outcome hRun _ => ?_
  have hSame : ({ t with writes := t.writes ++ outcome.writes } : Transaction V) = t := by
    rw [← hRun, hNone busy, List.append_nil]
  rw [hSame]
  exact h a

theorem query_last {q : Query} {Q : Except ε (Reply q) → Transaction V → Prop} (hOpen : t.aborted = false)
    (hFail : ∀ d, Q (.error (engine.raise d)) { t with aborted := true })
    (h : ∀ busy a outcome, engine.execute q t.now busy (rows.apply t.writes) = outcome → outcome.reply = .ok a →
      Q (.ok a) { t with writes := t.writes ++ outcome.writes }) : Operates engine i rows Q (Sql.query q) t := by
  rw [← Program.bind_pure (Sql.query q)]
  exact query hOpen hFail fun busy a outcome hRun hReply => done (h busy a outcome hRun hReply)

theorem query_aborted {q : Query} {f : Reply q → Routine ε Note Reply Answer α} (hAborted : t.aborted = true)
    (hFail : ∀ d, Q (.error (engine.raise d)) t) : Operates engine i rows Q (Sql.query q >>= f) t := by
  rintro s rfl
  refine ⟨rfl, fun _ choice reply session hReply => ?_⟩
  cases choice with
  | ok =>
    simp only [answered, respond, respondQuery, runQuery, hAborted, if_true] at hReply
    cases hReply
    exact done (hFail _) s rfl
  | fail d =>
    have hSame : ({ t with aborted := true } : Transaction V) = t := by rw [← hAborted]
    cases hReply
    exact done (hSame ▸ hFail d) s rfl
  | lost d => cases hReply
  | outside c => cases hReply

theorem external {x : External} {f : Answer x → Routine ε Note Reply Answer α}
    (hError : ∀ c world e world', engine.answer x i c world = some (.error e, world') → Q (.error e) t)
    (h : ∀ a, Operates engine i rows Q (f a) t) : Operates engine i rows Q (Sql.external x >>= f) t := by
  rintro s rfl
  refine ⟨rfl, fun _ choice reply session hReply => ?_⟩
  cases choice with
  | outside c =>
    obtain ⟨⟨result, world⟩, hAnswer, hSame⟩ := Option.map_eq_some_iff.mp hReply
    cases hSame
    cases reply with
    | ok a => exact h a { s with world := world } rfl
    | error e => exact done (hError c s.world e world hAnswer) { s with world := world } rfl
  | ok => cases hReply
  | fail d => cases hReply
  | lost d => cases hReply

section Transactions

variable {s : Server V ι γ} {note : α → Note}

def Ends (rows : Rows V) (Q : Except ε α → Transaction V → Prop) (result : Except ε α) (session : Session V ι γ) : Prop :=
  (∀ e, result = .error e → session.2.rows = rows) ∧
    ∀ a, result = .ok a → ∃ t, Q (.ok a) t ∧ session.2.rows = if t.aborted then rows else rows.apply t.writes

omit [DecidableEq ι] in
theorem ends_error {e : ε} {session : Session V ι γ} (h : session.2.rows = rows) : Ends rows Q (.error e) session := by
  constructor
  · exact fun _ _ => h
  · intro a hOk
    cases hOk

omit [DecidableEq ι] in
theorem ends_ok {a : α} {session : Session V ι γ} (hEnd : Q (.ok a) t)
    (hRows : session.2.rows = if t.aborted then rows else rows.apply t.writes) : Ends rows Q (.ok a) session := by
  constructor
  · intro e hError
    cases hError
  · intro b hOk
    cases hOk
    exact ⟨t, hEnd, hRows⟩

theorem rollback {e : ε} {session : Session V ι γ} (h : session.2.rows = rows) :
    (do
      MonadExcept.tryCatch (Program.perform (Op.rollback e)) fun _ => pure ()
      throw e : Routine ε Note Reply Answer α).Ensures (answered engine i) (fun _ _ => True) (fun _ => True) (Ends rows Q) session := by
  refine .bind (.tryCatch ⟨trivial, fun _ choice reply session' hReply => ?_⟩)
  have hEnd : session' = (none, session.2.release i) := by
    cases choice <;> cases hReply <;> rfl
  subst hEnd
  have hRows : (session.2.release i).rows = rows := h
  cases reply with
  | ok a => exact ⟨trivial, trivial, ends_error hRows⟩
  | error e => exact ⟨trivial, trivial, trivial, ends_error hRows⟩

theorem commit_cases {note : Note} {choice : Choice δ χ} {reply : Except ε Unit} {session : Session V ι γ} (hRows : s.rows = rows)
    (h : (answered engine i).respond (Op.commit note) choice (some t, s) = some (reply, session)) :
    reply = .ok () ∧ session.2.rows = (if t.aborted then rows else rows.apply t.writes) ∨
      (∃ e, reply = .error e) ∧ session.2.rows = rows := by
  subst hRows
  cases choice with
  | ok =>
    simp only [answered, respond, respondCommit, runCommit] at h
    split at h
    · rename_i hAborted
      cases h
      exact .inl ⟨rfl, (if_pos hAborted).symm⟩
    · rename_i hOpen
      split at h
      · cases h
        exact .inr ⟨⟨_, rfl⟩, rfl⟩
      · cases h
        exact .inl ⟨rfl, (if_neg hOpen).symm⟩
  | fail d =>
    cases h
    exact .inr ⟨⟨_, rfl⟩, rfl⟩
  | lost d => cases h
  | outside c => cases h

theorem transaction (h : Operates engine i s.rows Q p ⟨s.clock, [], false⟩) :
    (Sql.transaction note p).Ensures (answered engine i) (fun _ _ => True) (fun _ => True) (Ends s.rows Q) (none, s) := by
  refine .tryCatch (.bind ⟨trivial, fun _ choice reply session hReply => ?_⟩)
  have hStart : reply = .ok () ∧ session = (some ⟨s.clock, [], false⟩, s) ∨ (∃ e, reply = .error e) ∧ session = (none, s) := by
    cases choice with
    | ok =>
      cases hReply
      exact .inl ⟨rfl, rfl⟩
    | fail d =>
      cases hReply
      exact .inr ⟨⟨_, rfl⟩, rfl⟩
    | lost d => cases hReply
    | outside c => cases hReply
  cases hStart with
  | inr hError =>
    obtain ⟨⟨e, rfl⟩, rfl⟩ := hError
    exact ⟨trivial, rollback rfl⟩
  | inl hOpen =>
    obtain ⟨rfl, rfl⟩ := hOpen
    refine ⟨trivial, Program.Ensures.andThen (h s rfl) (fun _ _ => trivial) ?_ ?_⟩
    · intro e session hSame _
      exact rollback hSame
    · rintro a ⟨txn, server⟩ hSame ⟨t, hTxn, hEnd⟩
      cases hTxn
      refine .bind ⟨trivial, fun _ choice reply session hReply => ?_⟩
      cases commit_cases hSame hReply with
      | inl hDone =>
        obtain ⟨rfl, hRows⟩ := hDone
        exact ⟨trivial, trivial, ends_ok hEnd hRows⟩
      | inr hFailed =>
        obtain ⟨⟨e, rfl⟩, hRows⟩ := hFailed
        exact ⟨trivial, rollback hRows⟩

end Transactions

end Operates

-- What follows uses the rules above and never runs the program.
attribute [irreducible] Operates

end Sql
