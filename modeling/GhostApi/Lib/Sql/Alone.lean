import GhostApi.Lib.Sql.Sessions

/-!
# A client that is alone

Nobody else takes a step, every call to the database ends as it should, and
what comes from outside is drawn from a list. The result of a program is then
a function of the rows and of the draws, and a client of the system can get it.
-/

namespace Sql

open Effect Transition

variable {κ : Type} {V : κ → Type} {ι γ δ ε χ Query External Note Call α β : Type} {Reply : Query → Type}
  {Answer : External → Type} [DecidableEq κ] [DecidableEq ι]

def draw (δ : Type) : Op Query External Note ε → List χ → Option (Choice δ χ × List χ)
  | .external _, c :: draws => some (.outside c, draws)
  | .external _, [] => none
  | _, draws => some (.ok, draws)

def alone (engine : Engine V ι γ δ ε χ Note Reply Answer) (i : ι) : Routine ε Note Reply Answer α → List χ →
    Session V ι γ → Option (Except ε α × List χ × Session V ι γ)
  | .done result, draws, session => some (result, draws, session)
  | .call op next, draws, session => (draw δ op draws).bind fun (choice, draws) =>
    (respond engine i op choice session).bind fun (reply, session) => alone engine i (next reply) draws session

variable {engine : Engine V ι γ δ ε χ Note Reply Answer} {i : ι} {draws rest left : List χ}
  {session session' session'' : Session V ι γ}

/-- The program ends with this result, these draws left over and this session. -/
abbrev Yields (engine : Engine V ι γ δ ε χ Note Reply Answer) (i : ι) (p : Routine ε Note Reply Answer α)
    (draws : List χ) (session : Session V ι γ) (result : Except ε α) (rest : List χ) (session' : Session V ι γ) : Prop :=
  alone engine i p draws session = some (result, rest, session')

theorem Yields.bind {p : Routine ε Note Reply Answer α} {f : α → Routine ε Note Reply Answer β} {a : α}
    {result : Except ε β} (h : Yields engine i p draws session (.ok a) rest session')
    (hNext : Yields engine i (f a) rest session' result left session'') :
    Yields engine i (p >>= f) draws session result left session'' := by
  induction p generalizing draws session with
  | done r =>
    cases h
    exact hNext
  | call op next ih =>
    obtain ⟨⟨choice, others⟩, hDraw, h⟩ := Option.bind_eq_some_iff.mp h
    obtain ⟨⟨reply, between⟩, hReply, h⟩ := Option.bind_eq_some_iff.mp h
    exact Option.bind_eq_some_iff.mpr ⟨_, hDraw, Option.bind_eq_some_iff.mpr ⟨_, hReply, ih reply h⟩⟩

theorem Yields.throws {p : Routine ε Note Reply Answer α} {f : α → Routine ε Note Reply Answer β} {e : ε}
    (h : Yields engine i p draws session (.error e) rest session') :
    Yields engine i (p >>= f) draws session (.error e) rest session' := by
  induction p generalizing draws session with
  | done r =>
    cases h
    rfl
  | call op next ih =>
    obtain ⟨⟨choice, others⟩, hDraw, h⟩ := Option.bind_eq_some_iff.mp h
    obtain ⟨⟨reply, between⟩, hReply, h⟩ := Option.bind_eq_some_iff.mp h
    exact Option.bind_eq_some_iff.mpr ⟨_, hDraw, Option.bind_eq_some_iff.mpr ⟨_, hReply, ih reply h⟩⟩

theorem Yields.caught {p : Routine ε Note Reply Answer α} {handler : ε → Routine ε Note Reply Answer α} {e : ε}
    {result : Except ε α} (h : Yields engine i p draws session (.error e) rest session')
    (hNext : Yields engine i (handler e) rest session' result left session'') :
    Yields engine i (MonadExcept.tryCatch p handler) draws session result left session'' := by
  induction p generalizing draws session with
  | done r =>
    cases h
    exact hNext
  | call op next ih =>
    obtain ⟨⟨choice, others⟩, hDraw, h⟩ := Option.bind_eq_some_iff.mp h
    obtain ⟨⟨reply, between⟩, hReply, h⟩ := Option.bind_eq_some_iff.mp h
    exact Option.bind_eq_some_iff.mpr ⟨_, hDraw, Option.bind_eq_some_iff.mpr ⟨_, hReply, ih reply h⟩⟩

theorem Yields.passes {p : Routine ε Note Reply Answer α} {handler : ε → Routine ε Note Reply Answer α} {a : α}
    (h : Yields engine i p draws session (.ok a) rest session') :
    Yields engine i (MonadExcept.tryCatch p handler) draws session (.ok a) rest session' := by
  induction p generalizing draws session with
  | done r =>
    cases h
    rfl
  | call op next ih =>
    obtain ⟨⟨choice, others⟩, hDraw, h⟩ := Option.bind_eq_some_iff.mp h
    obtain ⟨⟨reply, between⟩, hReply, h⟩ := Option.bind_eq_some_iff.mp h
    exact Option.bind_eq_some_iff.mpr ⟨_, hDraw, Option.bind_eq_some_iff.mpr ⟨_, hReply, ih reply h⟩⟩

theorem yields_throwIf_not {c : Prop} {_ : Decidable c} {e : ε} (h : ¬c) :
    Yields engine i (Program.throwIf c e) draws session (.ok ()) draws session := by
  rw [Program.throwIf, if_neg h]
  rfl

theorem yields_external {x : External} {c : χ} {now : Option (Transaction V)} {s : Server V ι γ} {reply : Except ε (Answer x)}
    {world : γ} (h : engine.answer x i c s.world = some (reply, world)) :
    Yields engine i (external x) (c :: rest) (now, s) reply rest (now, { s with world := world }) := by
  have hReply : respond engine i (.external x) (.outside c) (now, s) = some (reply, now, { s with world := world }) := by
    simp only [respond, respondExternal, h, Option.map_some]
    rfl
  exact Option.bind_eq_some_iff.mpr ⟨_, rfl, Option.bind_eq_some_iff.mpr ⟨_, hReply, rfl⟩⟩

/-! ## Statements and transactions -/

def Unlocked (i : ι) (s : Server V ι γ) : Prop := ∀ k, s.busy i k = false

variable {s s' : Server V ι γ} {now : Nat} {writes : List (Change V)}

theorem Unlocked.lock (h : Unlocked i s) (keys : List κ) : Unlocked i (s.lock i keys) := by
  intro k
  have hk := h k
  unfold Server.busy Server.lock at *
  dsimp only
  by_cases hMem : k ∈ keys
  · simp [hMem]
  · simpa [hMem] using hk

theorem yields_query {q : Query} {a : Reply q} {outcome : Outcome V δ (Reply q)} (hFree : Unlocked i s)
    (hRun : engine.execute q now (s.busy i) (s.rows.apply writes) = outcome) (hReply : outcome.reply = .ok a) :
    Yields engine i (query q) draws (some ⟨now, writes, false⟩, s) (.ok a) draws
      (some ⟨now, writes ++ outcome.writes, false⟩, s.lock i outcome.keys) := by
  subst hRun
  have hBusy : ¬(engine.execute q now (s.busy i) (s.rows.apply writes)).keys.any (s.busy i) = true := by
    simp [hFree _]
  have hAnswer : respond engine i (.query q) .ok (some ⟨now, writes, false⟩, s) = some (.ok a,
      some ⟨now, writes ++ (engine.execute q now (s.busy i) (s.rows.apply writes)).writes, false⟩,
      s.lock i (engine.execute q now (s.busy i) (s.rows.apply writes)).keys) := by
    simp only [respond, respondQuery, runQuery, Bool.false_eq_true, if_false]
    rw [if_neg hBusy, hReply]
    rfl
  exact Option.bind_eq_some_iff.mpr ⟨_, rfl, Option.bind_eq_some_iff.mpr ⟨_, hAnswer, rfl⟩⟩

theorem yields_query_error {q : Query} {d : δ} (hFree : Unlocked i s)
    (hReply : (engine.execute q now (s.busy i) (s.rows.apply writes)).reply = .error d) :
    Yields engine i (query q) draws (some ⟨now, writes, false⟩, s) (.error (engine.raise d)) draws
      (some ⟨now, writes, true⟩, s) := by
  have hBusy : ¬(engine.execute q now (s.busy i) (s.rows.apply writes)).keys.any (s.busy i) = true := by
    simp [hFree _]
  have hAnswer : respond engine i (.query q) .ok (some ⟨now, writes, false⟩, s) =
      some (.error (engine.raise d), some ⟨now, writes, true⟩, s) := by
    simp only [respond, respondQuery, runQuery, Bool.false_eq_true, if_false]
    rw [if_neg hBusy, hReply]
    rfl
  exact Option.bind_eq_some_iff.mpr ⟨_, rfl, Option.bind_eq_some_iff.mpr ⟨_, hAnswer, rfl⟩⟩

theorem yields_query_aborted {q : Query} : Yields engine i (query q) draws (some ⟨now, writes, true⟩, s)
    (.error (engine.raise engine.inFailedTransaction)) draws (some ⟨now, writes, true⟩, s) := by
  have hAnswer : respond engine i (.query q) .ok (some ⟨now, writes, true⟩, s) =
      some (.error (engine.raise engine.inFailedTransaction), some ⟨now, writes, true⟩, s) := rfl
  exact Option.bind_eq_some_iff.mpr ⟨_, rfl, Option.bind_eq_some_iff.mpr ⟨_, hAnswer, rfl⟩⟩

theorem yields_transaction {note : α → Note} {operation : Routine ε Note Reply Answer α} {a : α}
    (h : Yields engine i operation draws (some ⟨s.clock, [], false⟩, s) (.ok a) rest (some ⟨now, writes, false⟩, s'))
    (hDeferred : engine.deferred writes s'.rows = none) :
    Yields engine i (transaction note operation) draws (none, s) (.ok a) rest
      (none, s'.commit engine i writes (note a)) := by
  have hCommit : respond engine i (.commit (note a)) .ok (some ⟨now, writes, false⟩, s') =
      some (.ok (), none, s'.commit engine i writes (note a)) := by
    simp only [respond, respondCommit, runCommit, Bool.false_eq_true, if_false, hDeferred]
    rfl
  have hStart : Yields engine i (Program.perform (Op.start : Op Query External Note ε)) draws (none, s) (.ok ()) draws
      (some ⟨s.clock, [], false⟩, s) := rfl
  have hPerform : Yields engine i (Program.perform (Op.commit (note a) : Op Query External Note ε)) rest
      (some ⟨now, writes, false⟩, s') (.ok ()) rest (none, s'.commit engine i writes (note a)) :=
    Option.bind_eq_some_iff.mpr ⟨_, rfl, Option.bind_eq_some_iff.mpr ⟨_, hCommit, rfl⟩⟩
  exact .passes (hStart.bind (h.bind (hPerform.bind rfl)))

theorem yields_rollback {note : α → Note} {operation : Routine ε Note Reply Answer α} {e : ε}
    {txn : Option (Transaction V)} (h : Yields engine i operation draws (some ⟨s.clock, [], false⟩, s) (.error e) rest (txn, s')) :
    Yields engine i (transaction note operation) draws (none, s) (.error e) rest (none, s'.release i) := by
  have hStart : Yields engine i (Program.perform (Op.start : Op Query External Note ε)) draws (none, s) (.ok ()) draws
      (some ⟨s.clock, [], false⟩, s) := rfl
  have hPerform : Yields engine i (Program.perform (Op.rollback e : Op Query External Note ε)) rest (txn, s') (.ok ()) rest
      (none, s'.release i) := rfl
  exact .caught (hStart.bind (h.throws)) ((Yields.passes hPerform).bind rfl)

/-! ## Operations over rows that stay as they are -/

section Operations

variable {c : Committed V γ} {writes' writes'' : List (Change V)}

/-- An operation of a transaction over these committed rows ends with a value and these writes. -/
def Leads (engine : Engine V ι γ δ ε χ Note Reply Answer) (i : ι) (c : Committed V γ) (now : Nat)
    (p : Routine ε Note Reply Answer α) (draws : List χ) (writes : List (Change V)) (a : α) (rest : List χ)
    (writes' : List (Change V)) : Prop :=
  ∀ s : Server V ι γ, s.toCommitted = c → Unlocked i s → ∃ s' : Server V ι γ, s'.toCommitted = c ∧ Unlocked i s' ∧
    Yields engine i p draws (some ⟨now, writes, false⟩, s) (.ok a) rest (some ⟨now, writes', false⟩, s')

def Fails (engine : Engine V ι γ δ ε χ Note Reply Answer) (i : ι) (c : Committed V γ) (now : Nat)
    (p : Routine ε Note Reply Answer α) (draws : List χ) (writes : List (Change V)) (e : ε) (rest : List χ) : Prop :=
  ∀ s : Server V ι γ, s.toCommitted = c → Unlocked i s → ∃ (s' : Server V ι γ) (txn : Option (Transaction V)),
    s'.toCommitted = c ∧ Unlocked i s' ∧
      Yields engine i p draws (some ⟨now, writes, false⟩, s) (.error e) rest (txn, s')

theorem leads_pure (a : α) : Leads engine i c now (pure a) draws writes a draws writes :=
  fun s hSame hFree => ⟨s, hSame, hFree, rfl⟩

theorem Leads.bind {p : Routine ε Note Reply Answer α} {f : α → Routine ε Note Reply Answer β} {a : α} {b : β}
    (h : Leads engine i c now p draws writes a rest writes')
    (hNext : Leads engine i c now (f a) rest writes' b left writes'') :
    Leads engine i c now (p >>= f) draws writes b left writes'' := by
  intro s hSame hFree
  obtain ⟨s₁, hSame₁, hFree₁, hFirst⟩ := h s hSame hFree
  obtain ⟨s₂, hSame₂, hFree₂, hSecond⟩ := hNext s₁ hSame₁ hFree₁
  exact ⟨s₂, hSame₂, hFree₂, hFirst.bind hSecond⟩

theorem Leads.thenFails {p : Routine ε Note Reply Answer α} {f : α → Routine ε Note Reply Answer β} {a : α} {e : ε}
    (h : Leads engine i c now p draws writes a rest writes') (hNext : Fails engine i c now (f a) rest writes' e left) :
    Fails engine i c now (p >>= f) draws writes e left := by
  intro s hSame hFree
  obtain ⟨s₁, hSame₁, hFree₁, hFirst⟩ := h s hSame hFree
  obtain ⟨s₂, txn, hSame₂, hFree₂, hSecond⟩ := hNext s₁ hSame₁ hFree₁
  exact ⟨s₂, txn, hSame₂, hFree₂, hFirst.bind hSecond⟩

theorem Fails.bind {p : Routine ε Note Reply Answer α} {f : α → Routine ε Note Reply Answer β} {e : ε}
    (h : Fails engine i c now p draws writes e rest) : Fails engine i c now (p >>= f) draws writes e rest := by
  intro s hSame hFree
  obtain ⟨s₁, txn, hSame₁, hFree₁, hFirst⟩ := h s hSame hFree
  exact ⟨s₁, txn, hSame₁, hFree₁, hFirst.throws⟩

theorem Leads.passes {p : Routine ε Note Reply Answer α} {handler : ε → Routine ε Note Reply Answer α} {a : α}
    (h : Leads engine i c now p draws writes a rest writes') :
    Leads engine i c now (MonadExcept.tryCatch p handler) draws writes a rest writes' := by
  intro s hSame hFree
  obtain ⟨s', hSame', hFree', hYields⟩ := h s hSame hFree
  exact ⟨s', hSame', hFree', hYields.passes⟩

theorem leads_lift {x : Except ε α} {a : α} (h : x = .ok a) :
    Leads engine i c now (liftM x : Routine ε Note Reply Answer α) draws writes a draws writes := by
  subst h
  exact leads_pure a

theorem leads_throwIf {p : Prop} {_ : Decidable p} {e : ε} (h : ¬p) :
    Leads engine i c now (Program.throwIf p e) draws writes () draws writes := by
  rw [Program.throwIf, if_neg h]
  exact leads_pure ()

theorem fails_throwIf {p : Prop} {_ : Decidable p} {e : ε} (h : p) :
    Fails engine i c now (Program.throwIf p e) draws writes e draws := by
  rw [Program.throwIf, if_pos h]
  exact fun s hSame hFree => ⟨s, _, hSame, hFree, rfl⟩

theorem leads_query {q : Query} {a : Reply q} (outcome : Outcome V δ (Reply q))
    (hRun : ∀ busy, engine.execute q now busy (c.rows.apply writes) = outcome) (hReply : outcome.reply = .ok a) :
    Leads engine i c now (query q) draws writes a draws (writes ++ outcome.writes) := by
  rintro s rfl hFree
  exact ⟨s.lock i outcome.keys, rfl, hFree.lock _, yields_query hFree (hRun _) hReply⟩

theorem leads_read {q : Query} {a : Reply q} (outcome : Outcome V δ (Reply q))
    (hRun : ∀ busy, engine.execute q now busy (c.rows.apply writes) = outcome) (hReply : outcome.reply = .ok a)
    (hNone : outcome.writes = []) : Leads engine i c now (query q) draws writes a draws writes := by
  have hLeads : Leads engine i c now (query q) draws writes a draws (writes ++ outcome.writes) :=
    leads_query outcome hRun hReply
  rwa [hNone, List.append_nil] at hLeads

theorem fails_query {q : Query} {d : δ} (outcome : Outcome V δ (Reply q))
    (hRun : ∀ busy, engine.execute q now busy (c.rows.apply writes) = outcome) (hReply : outcome.reply = .error d) :
    Fails engine i c now (query q) draws writes (engine.raise d) draws := by
  rintro s rfl hFree
  refine ⟨s, _, rfl, hFree, yields_query_error hFree ?_⟩
  rw [hRun, hReply]

theorem leads_external {x : External} {ch : χ} {a : Answer x} (h : engine.answer x i ch c.world = some (.ok a, c.world)) :
    Leads engine i c now (external x) (ch :: rest) writes a rest writes := by
  rintro s rfl hFree
  exact ⟨s, rfl, hFree, yields_external h⟩

omit [DecidableEq κ] in
theorem release_unlocked (hFree : Unlocked i s) : s.release i = ⟨s.toCommitted, fun _ => none⟩ := by
  have hOwner : (fun k => if s.owner k = some i then none else s.owner k) = fun _ => none := by
    funext k
    have hk := hFree k
    unfold Server.busy at hk
    split at hk <;> simp_all
  rw [Server.release, hOwner]

theorem commit_unlocked {note : Note} (hFree : Unlocked i s) :
    s.commit engine i writes note = ⟨⟨s.rows.apply writes, engine.record note i s.world, s.clock⟩, fun _ => none⟩ := by
  rw [Server.commit, release_unlocked hFree]

theorem Leads.transaction {note : α → Note} {operation : Routine ε Note Reply Answer α} {a : α}
    (h : Leads engine i c c.clock operation draws [] a rest writes) (hDeferred : engine.deferred writes c.rows = none) :
    Yields engine i (transaction note operation) draws (none, ⟨c, fun _ => none⟩) (.ok a) rest
      (none, ⟨⟨c.rows.apply writes, engine.record (note a) i c.world, c.clock⟩, fun _ => none⟩) := by
  obtain ⟨s', rfl, hFree, hYields⟩ := h ⟨c, fun _ => none⟩ rfl fun _ => rfl
  rw [← commit_unlocked hFree]
  exact yields_transaction (s := ⟨s'.toCommitted, fun _ => none⟩) hYields hDeferred

theorem Fails.transaction {note : α → Note} {operation : Routine ε Note Reply Answer α} {e : ε}
    (h : Fails engine i c c.clock operation draws [] e rest) :
    Yields engine i (transaction note operation) draws (none, ⟨c, fun _ => none⟩) (.error e) rest
      (none, ⟨c, fun _ => none⟩) := by
  obtain ⟨s', txn, rfl, hFree, hYields⟩ := h ⟨c, fun _ => none⟩ rfl fun _ => rfl
  have hDone : Yields engine i (transaction note operation) draws (none, ⟨s'.toCommitted, fun _ => none⟩) (.error e) rest
      (none, s'.release i) := yields_rollback hYields
  rwa [release_unlocked hFree] at hDone

end Operations

/-! ## The system -/

theorem run_of_yields {program : Call → Routine ε Note Reply Answer Unit} {admits : Call → Prop} {initial : Server V ι γ}
    {events : List (Event ι δ χ Call)} {system : System V ι γ ε Call Note Reply Answer} {call : Call}
    {p : Routine ε Note Reply Answer Unit} {result : Except ε Unit}
    (run : (System.machine engine program initial).Run (System.Allowed admits fun _ _ _ => True) events system)
    (hClient : system.client i = some ⟨call, session.1, p⟩) (hServer : system.server = session.2)
    (h : Yields engine i p draws session result rest session') :
    ∃ events' system', (System.machine engine program initial).Run (System.Allowed admits fun _ _ _ => True) events' system' ∧
      system'.server = session'.2 ∧ system'.client = Function.update system.client i (some ⟨call, session'.1, .done result⟩) := by
  induction p generalizing events system draws session with
  | done r =>
    cases h
    refine ⟨events, system, run, hServer, ?_⟩
    rw [← hClient, Function.update_eq_self]
  | call op next ih =>
    obtain ⟨⟨choice, others⟩, hDraw, h⟩ := Option.bind_eq_some_iff.mp h
    obtain ⟨⟨reply, txn, server⟩, hReply, h⟩ := Option.bind_eq_some_iff.mp h
    have hStep : (System.machine engine program initial).step system (.advance i choice) =
        some ⟨server, Function.update system.client i (some ⟨call, txn, next reply⟩)⟩ := by
      change (system.client i).bind _ = _
      rw [hClient]
      change (respond engine i op choice (session.1, system.server)).map _ = _
      rw [hServer, hReply]
      rfl
    have hAllowed : System.Allowed admits (fun _ _ _ => True) system (.advance i choice) := fun _ _ _ _ _ => trivial
    obtain ⟨events', system', hRun, hServer', hClient'⟩ := ih reply (run.next hAllowed hStep) (Function.update_self _ _ _)
      rfl h
    refine ⟨events', system', hRun, hServer', ?_⟩
    rw [hClient', Function.update_idem]

theorem run_of_call {program : Call → Routine ε Note Reply Answer Unit} {admits : Call → Prop} {initial : Server V ι γ}
    {events : List (Event ι δ χ Call)} {system : System V ι γ ε Call Note Reply Answer} {call : Call}
    {result : Except ε Unit} {txn : Option (Transaction V)}
    (run : (System.machine engine program initial).Run (System.Allowed admits fun _ _ _ => True) events system)
    (hAdmits : admits call) (hClient : system.client i = none)
    (h : Yields engine i (program call) draws (none, system.server) result rest (txn, s')) :
    ∃ events' system', (System.machine engine program initial).Run (System.Allowed admits fun _ _ _ => True) events' system' ∧
      system'.server = { s'.release i with world := engine.halt i s'.world } ∧ system'.client i = none := by
  have hStart : (System.machine engine program initial).step system (.start i call) =
      some { system with client := Function.update system.client i (some ⟨call, none, program call⟩) } := by
    simp only [System.machine, System.step, hClient]
  have hStarts : System.Allowed admits (fun _ _ _ => True) system (.start i call : Event ι δ χ Call) := hAdmits
  obtain ⟨events', system', hRun, hServer, hDone⟩ :=
    run_of_yields (run.next hStarts hStart) (Function.update_self _ _ _) rfl h
  have hEnd : (System.machine engine program initial).step system' (.advance i .ok) = some (system'.retire engine i) := by
    change (system'.client i).bind _ = _
    rw [hDone, Function.update_self]
    rfl
  have hAllowed : System.Allowed admits (fun _ _ _ => True) system' (.advance i .ok : Event ι δ χ Call) :=
    fun _ _ _ _ _ => trivial
  refine ⟨_, _, hRun.next hAllowed hEnd, ?_, Function.update_self _ _ _⟩
  simp only [System.retire, hServer]

end Sql
