import GhostApi.Lib.Sql.Interference

/-!
# Runs of secure programs

Where every program that a client may start is secure, the invariant of the
protocol holds in every run, and every client meets its assertion whenever it
is about to end a transaction. The locks that a transaction holds cover the
rows that it wrote, so that no commit changes a row that another client owns.
-/

namespace Sql

open Effect Transition

variable {κ : Type} {V : κ → Type} {ι γ δ ε χ Query External Note Call : Type} {Reply : Query → Type}
  {Answer : External → Type} [DecidableEq κ] [DecidableEq ι] {engine : Engine V ι γ δ ε χ Note Reply Answer}

section Answers

variable {i : ι} {server server' : Server V ι γ} {txn txn' : Option (Transaction V)} {choice : Choice δ χ}

theorem runCommit_cases {note : Note} {reply reply' : Except ε Unit} {t : Transaction V}
    (h : runCommit engine i note reply t server = some (reply', txn', server')) :
    txn' = none ∧ (server' = server.release i ∨ t.aborted = false ∧
      engine.deferred t.writes server.rows = none ∧ server' = server.commit engine i t.writes note) := by
  unfold runCommit at h
  split at h
  · cases h
    exact ⟨rfl, .inl rfl⟩
  · rename_i hOpen
    split at h
    · cases h
      exact ⟨rfl, .inl rfl⟩
    · cases h
      exact ⟨rfl, .inr ⟨Bool.eq_false_iff.mpr hOpen, ‹_›, rfl⟩⟩

theorem commit_cases {note : Note} {reply : Except ε Unit}
    (h : respondCommit engine i note choice (txn, server) = some (reply, txn', server')) :
    ∃ t, txn = some t ∧ txn' = none ∧ (server' = server.release i ∨ t.aborted = false ∧
      engine.deferred t.writes server.rows = none ∧
      server' = server.commit engine i t.writes note) := by
  cases txn with
  | none => cases choice <;> cases h
  | some t =>
    refine ⟨t, rfl, ?_⟩
    cases choice with
    | ok => exact runCommit_cases h
    | lost d => exact runCommit_cases h
    | fail d =>
      cases h
      exact ⟨rfl, .inl rfl⟩
    | outside c => cases h

theorem respond_rows {op : Op Query External Note ε} {reply : Except ε (op.Result Reply Answer)}
    (h : respond engine i op choice (txn, server) = some (reply, txn', server')) :
    server'.rows = server.rows ∨ ∃ note t, op = .commit note ∧ txn = some t ∧ t.aborted = false ∧
      engine.deferred t.writes server.rows = none ∧
      server' = server.commit engine i t.writes note := by
  cases op with
  | start =>
    cases txn <;> cases choice <;> cases h <;> exact .inl rfl
  | query q =>
    cases txn with
    | none => cases choice <;> cases h
    | some t =>
      cases choice with
      | ok =>
        simp only [respond, respondQuery, runQuery] at h
        split at h
        · cases h
          exact .inl rfl
        · split at h
          · cases h
          · split at h
            · cases h
              exact .inl rfl
            · cases h
              exact .inl rfl
      | fail d =>
        cases h
        exact .inl rfl
      | lost d => cases h
      | outside c => cases h
  | commit note =>
    obtain ⟨t, rfl, _, rfl | ⟨hOpen, hDeferred, rfl⟩⟩ := commit_cases h
    · exact .inl rfl
    · exact .inr ⟨note, t, rfl, rfl, hOpen, hDeferred, rfl⟩
  | rollback cause => cases choice <;> cases h <;> exact .inl rfl
  | external x =>
    cases choice with
    | outside c =>
      obtain ⟨⟨reply, world⟩, _, hSame⟩ := Option.map_eq_some_iff.mp h
      cases hSame
      exact .inl rfl
    | ok => cases h
    | fail d => cases h
    | lost d => cases h

end Answers

namespace System

variable {program : Call → Routine ε Note Reply Answer Unit} {s s' : System V ι γ ε Call Note Reply Answer}
  {event : Event ι δ χ Call}

theorem step_rows (h : step engine program s event = some s') : s'.server.rows = s.server.rows ∨
    ∃ i choice client note next t, event = .advance i choice ∧ s.client i = some client ∧
      client.program = .call (.commit note) next ∧ client.txn = some t ∧ t.aborted = false ∧
      engine.deferred t.writes s.server.rows = none ∧
      s'.server = s.server.commit engine i t.writes note := by
  cases event with
  | start i call =>
    cases hClient : s.client i with
    | some client => simp [step, hClient] at h
    | none =>
      simp only [step, hClient, Option.some.injEq] at h
      exact .inl (h ▸ rfl)
  | advance i choice =>
    obtain ⟨client, hClient, h⟩ := Option.bind_eq_some_iff.mp h
    cases hProgram : client.program with
    | done result =>
      simp only [advance, hProgram, Option.some.injEq] at h
      exact .inl (h ▸ rfl)
    | call op next =>
      simp only [advance, hProgram] at h
      obtain ⟨⟨reply, txn, server⟩, hReply, rfl⟩ := Option.map_eq_some_iff.mp h
      obtain hSame | ⟨note, t, rfl, hTxn, hOpen, hDeferred, hCommit⟩ := respond_rows hReply
      · exact .inl hSame
      · exact .inr ⟨i, choice, client, note, next, t, rfl, hClient, hProgram, hTxn, hOpen, hDeferred, hCommit⟩
  | stop i =>
    obtain ⟨client, _, rfl⟩ := Option.map_eq_some_iff.mp h
    exact .inl rfl
  | tick time =>
    cases h
    exact .inl rfl
  | outside c =>
    obtain ⟨world, _, rfl⟩ := Option.map_eq_some_iff.mp h
    exact .inl rfl

theorem admitted_of_run {admits : Call → Prop} {guard : ι → Op Query External Note ε → Session V ι γ → Prop}
    {initial : Server V ι γ} {events : List (Event ι δ χ Call)}
    (run : (machine engine program initial).Run (Allowed admits guard) events s) {i : ι}
    {client : Client V ε Call Note Reply Answer} (hClient : s.client i = some client) : admits client.call := by
  refine run.invariant (I := fun s => ∀ i client, s.client i = some client → admits client.call) ?_ ?_ i client hClient
  · rintro _ _ ⟨⟩
  · intro s event s' hAll hAllowed hStep j other hOther
    have hUpdate : ∀ {i : ι} {new : Option (Client V ε Call Note Reply Answer)} {server : Server V ι γ},
        s' = ⟨server, Function.update s.client i new⟩ → (∀ client, new = some client → admits client.call) →
        admits other.call := by
      rintro i new server rfl hNew
      by_cases hne : j = i
      · subst hne
        exact hNew other (by simpa using hOther)
      · exact hAll j other (by simpa [hne] using hOther)
    cases event with
    | start i call =>
      cases hFree : s.client i with
      | some client => simp [machine, step, hFree] at hStep
      | none =>
        simp only [machine, step, hFree, Option.some.injEq] at hStep
        refine hUpdate hStep.symm ?_
        rintro _ ⟨⟩
        exact hAllowed
    | advance i choice =>
      obtain ⟨client, hFound, hStep⟩ := Option.bind_eq_some_iff.mp hStep
      cases hProgram : client.program with
      | done result =>
        simp only [advance, hProgram, Option.some.injEq] at hStep
        exact hUpdate hStep.symm fun _ h => nomatch h
      | call op next =>
        simp only [advance, hProgram] at hStep
        obtain ⟨⟨reply, txn, server⟩, _, hSame⟩ := Option.map_eq_some_iff.mp hStep
        refine hUpdate hSame.symm ?_
        rintro _ ⟨⟩
        exact hAll i client hFound
    | stop i =>
      obtain ⟨client, _, hSame⟩ := Option.map_eq_some_iff.mp hStep
      exact hUpdate hSame.symm fun _ h => nomatch h
    | tick time =>
      cases hStep
      exact hAll j other hOther
    | outside c =>
      obtain ⟨world, _, rfl⟩ := Option.map_eq_some_iff.mp hStep
      exact hAll j other hOther

end System

namespace Protocol

variable (P : Protocol engine) (guard : ι → Op Query External Note ε → Session V ι γ → Prop)
  (A : ι → Call → Assertion engine)

structure Good (s : System V ι γ ε Call Note Reply Answer) : Prop where
  inv : P.Inv s.server.toCommitted
  secure : ∀ {i client}, s.client i = some client →
    P.Secure i (guard i) (A i client.call) (fun _ _ _ => True) client.program client.txn s.server
  locked : ∀ {i client t}, s.client i = some client → client.txn = some t →
    ∀ change ∈ t.writes, s.server.owner change.key = some i

variable {P guard A} {program : Call → Routine ε Note Reply Answer Unit}
  {s s' : System V ι γ ε Call Note Reply Answer} {i j : ι} {event : Event ι δ χ Call} {admits : Call → Prop}

theorem Good.at_op (h : P.Good guard A s) {client : Client V ε Call Note Reply Answer} {op : Op Query External Note ε}
    {next : Except ε (op.Result Reply Answer) → Routine ε Note Reply Answer Unit} (hClient : s.client i = some client)
    (hProgram : client.program = .call op next) (hGuard : guard i op (client.txn, s.server)) :
    (A i client.call).At op client.txn s.server := by
  have hSecure := h.secure hClient
  rw [hProgram] at hSecure
  exact (hSecure s.server (.refl h.inv) hGuard).1

/-! ### Steps of one client -/

structure Frame (i : ι) (s s' : Server V ι γ) : Prop where
  owned : ∀ {j k}, j ≠ i → s.owner k = some j → s'.owner k = some j
  rows : ∀ {k}, s'.rows.row k ≠ s.rows.row k → s.owner k = some i
  clock : s'.clock = s.clock

section Frames

variable {server server' : Server V ι γ}

omit [DecidableEq κ] [DecidableEq ι] in
theorem Frame.since (hFrame : Frame i server server') (hStep : P.Step i server server') (hne : j ≠ i) :
    P.Since j server server' where
  inv := hStep.inv
  owned hk := hFrame.owned hne hk
  rows {k} hk := by
    by_contra hChanged
    have hOwner := hFrame.rows hChanged
    rw [hk] at hOwner
    exact hne (Option.some.inj hOwner)
  clock := Nat.le_of_eq hFrame.clock.symm
  rely := hStep.rely j _ hne fun k hk hOwner => hne (Option.some.inj (hk.symm.trans hOwner))

omit [DecidableEq κ] [DecidableEq ι] in
theorem Frame.refl (i : ι) (server : Server V ι γ) : Frame i server server := ⟨fun _ h => h, fun h => absurd rfl h, rfl⟩

omit [DecidableEq κ] in
theorem release_owner_of_ne {k : κ} (hne : j ≠ i) (h : server.owner k = some j) :
    (server.release i).owner k = some j := by
  have hOther : server.owner k ≠ some i := fun hOwner => hne (Option.some.inj (h.symm.trans hOwner))
  exact (if_neg hOther).trans h

omit [DecidableEq κ] in
theorem Frame.release (i : ι) (server : Server V ι γ) : Frame i server (server.release i) :=
  ⟨fun hne h => release_owner_of_ne hne h, fun h => absurd rfl h, rfl⟩

omit [DecidableEq κ] in
theorem not_owned_of_free {k : κ} (hFree : server.busy i k = false) (hne : j ≠ i) : server.owner k ≠ some j := by
  intro hOwner
  simp [Server.busy, hOwner, hne] at hFree

theorem Frame.lock {keys : List κ} (hFree : ∀ k ∈ keys, server.busy i k = false) :
    Frame i server (server.lock i keys) := by
  refine ⟨fun {j k} hne h => ?_, fun h => absurd rfl h, rfl⟩
  have hOut : k ∉ keys := fun hMem => not_owned_of_free (hFree k hMem) hne h
  exact (if_neg hOut).trans h

theorem Frame.commit {writes : List (Change V)} {note : Note}
    (hLocked : ∀ change ∈ writes, server.owner change.key = some i) :
    Frame i server (server.commit engine i writes note) := by
  refine ⟨fun hne h => release_owner_of_ne hne h, fun {k} hChanged => ?_, rfl⟩
  by_contra hOther
  refine hChanged (Rows.apply_of_unwritten fun change hMem hKey => hOther ?_)
  rw [← hKey]
  exact hLocked change hMem

theorem respond_frame {op : Op Query External Note ε} {choice : Choice δ χ} {txn txn' : Option (Transaction V)}
    {reply : Except ε (op.Result Reply Answer)}
    (hLocked : ∀ t, txn = some t → ∀ change ∈ t.writes, server.owner change.key = some i)
    (h : respond engine i op choice (txn, server) = some (reply, txn', server')) :
    Frame i server server' ∧ ∀ t, txn' = some t → ∀ change ∈ t.writes, server'.owner change.key = some i := by
  cases op with
  | start =>
    cases txn with
    | some t => cases choice <;> cases h
    | none =>
      cases choice with
      | ok =>
        cases h
        refine ⟨.refl _ _, ?_⟩
        rintro t ⟨⟩ change hMem
        cases hMem
      | fail d =>
        cases h
        exact ⟨.refl _ _, fun t ht => nomatch ht⟩
      | lost d => cases h
      | outside c => cases h
  | query q =>
    cases txn with
    | none => cases choice <;> cases h
    | some t =>
      have hOld := hLocked t rfl
      cases choice with
      | ok =>
        simp only [respond, respondQuery, runQuery] at h
        split at h
        · cases h
          exact ⟨.refl _ _, hLocked⟩
        · split at h
          · cases h
          · rename_i hBusy
            have hFree : ∀ k ∈ (engine.execute q t.now (server.busy i) (server.rows.apply t.writes)).keys,
                server.busy i k = false := fun k hk =>
              Bool.eq_false_iff.mpr fun hOwned => hBusy (List.any_eq_true.mpr ⟨k, hk, hOwned⟩)
            split at h
            · cases h
              refine ⟨.lock hFree, ?_⟩
              rintro t ⟨⟩ change hMem
              rcases List.mem_append.mp hMem with hMem | hMem
              · have hOwner := hOld change hMem
                unfold Server.lock
                dsimp only
                split
                · rfl
                · exact hOwner
              · exact owner_lock_of_mem (List.mem_append_right _ (List.mem_map_of_mem hMem))
            · cases h
              refine ⟨.refl _ _, ?_⟩
              rintro t ⟨⟩
              exact hOld
      | fail d =>
        cases h
        refine ⟨.refl _ _, ?_⟩
        rintro t ⟨⟩
        exact hOld
      | lost d => cases h
      | outside c => cases h
  | commit note =>
    obtain ⟨t, rfl, rfl, rfl | ⟨_, _, rfl⟩⟩ := commit_cases h
    · exact ⟨.release _ _, fun t ht => nomatch ht⟩
    · exact ⟨.commit (hLocked t rfl), fun t ht => nomatch ht⟩
  | rollback cause =>
    cases choice with
    | ok =>
      cases h
      exact ⟨.release _ _, fun t ht => nomatch ht⟩
    | fail d =>
      cases h
      exact ⟨.release _ _, fun t ht => nomatch ht⟩
    | lost d => cases h
    | outside c => cases h
  | external x =>
    cases choice with
    | outside c =>
      obtain ⟨⟨reply, world⟩, _, hSame⟩ := Option.map_eq_some_iff.mp h
      cases hSame
      exact ⟨⟨fun _ h => h, fun h => absurd rfl h, rfl⟩, hLocked⟩
    | ok => cases h
    | fail d => cases h
    | lost d => cases h

end Frames

/-! ### Runs -/

theorem Good.others {server : Server V ι γ} (h : P.Good guard A s) (hFrame : Frame i s.server server)
    (hStep : P.Step i s.server server) {client : Client V ε Call Note Reply Answer} (hne : j ≠ i)
    (hClient : s.client j = some client) :
    P.Secure j (guard j) (A j client.call) (fun _ _ _ => True) client.program client.txn server ∧
      ∀ t, client.txn = some t → ∀ change ∈ t.writes, server.owner change.key = some j :=
  ⟨(h.secure hClient).since (hFrame.since hStep hne), fun _ hTxn change hMem =>
    hFrame.owned hne (h.locked hClient hTxn change hMem)⟩

theorem Good.retire (h : P.Good guard A s) (i : ι) : P.Good guard A (s.retire engine i) := by
  obtain ⟨hInv, hRely⟩ := P.halt i h.inv
  have hFrame : Frame i s.server (s.retire engine i).server :=
    ⟨fun hne hk => release_owner_of_ne hne hk, fun hk => absurd rfl hk, rfl⟩
  have hStep : P.Step i s.server (s.retire engine i).server := ⟨hInv, fun j owned hne _ => hRely j owned hne⟩
  have hOther : ∀ {j client}, (s.retire engine i).client j = some client → j ≠ i ∧ s.client j = some client := by
    intro j client hClient
    by_cases hne : j = i
    · subst hne
      simp [System.retire] at hClient
    · exact ⟨hne, by simpa [System.retire, hne] using hClient⟩
  constructor
  · exact hInv
  · intro j client hClient
    obtain ⟨hne, hClient⟩ := hOther hClient
    exact (h.others hFrame hStep hne hClient).1
  · intro j client t hClient hTxn
    obtain ⟨hne, hClient⟩ := hOther hClient
    exact (h.others hFrame hStep hne hClient).2 t hTxn

theorem Good.next (h : P.Good guard A s) {client : Client V ε Call Note Reply Answer}
    {op : Op Query External Note ε} {next : Except ε (op.Result Reply Answer) → Routine ε Note Reply Answer Unit}
    {choice : Choice δ χ} {reply : Except ε (op.Result Reply Answer)} {txn : Option (Transaction V)}
    {server : Server V ι γ} (hClient : s.client i = some client) (hProgram : client.program = .call op next)
    (hGuard : guard i op (client.txn, s.server))
    (hReply : respond engine i op choice (client.txn, s.server) = some (reply, txn, server)) :
    P.Step i s.server server ∧
      P.Secure i (guard i) (A i client.call) (fun _ _ _ => True) (next reply) txn server := by
  have hSecure := h.secure hClient
  rw [hProgram] at hSecure
  exact (hSecure s.server (.refl h.inv) hGuard).2 choice reply txn server hReply

theorem Good.answered (h : P.Good guard A s) {client : Client V ε Call Note Reply Answer}
    {op : Op Query External Note ε} {next : Except ε (op.Result Reply Answer) → Routine ε Note Reply Answer Unit}
    {choice : Choice δ χ} {reply : Except ε (op.Result Reply Answer)} {txn : Option (Transaction V)}
    {server : Server V ι γ} (hClient : s.client i = some client) (hProgram : client.program = .call op next)
    (hGuard : guard i op (client.txn, s.server))
    (hReply : respond engine i op choice (client.txn, s.server) = some (reply, txn, server)) :
    P.Good guard A ⟨server, Function.update s.client i (some ⟨client.call, txn, next reply⟩)⟩ := by
  obtain ⟨hStep, hRest⟩ := h.next hClient hProgram hGuard hReply
  obtain ⟨hFrame, hLocked⟩ := respond_frame (fun t hTxn => h.locked hClient hTxn) hReply
  constructor
  · exact hStep.inv
  · intro j other hOther
    by_cases hne : j = i
    · subst hne
      simp only [Function.update_self, Option.some.injEq] at hOther
      subst hOther
      exact hRest
    · simp only [Function.update_of_ne hne] at hOther
      exact (h.others hFrame hStep hne hOther).1
  · intro j other t hOther hTxn
    by_cases hne : j = i
    · subst hne
      simp only [Function.update_self, Option.some.injEq] at hOther
      subst hOther
      exact hLocked t hTxn
    · simp only [Function.update_of_ne hne] at hOther
      exact (h.others hFrame hStep hne hOther).2 t hTxn

theorem Good.moved {committed : Committed V γ} (h : P.Good guard A s) (hInv : P.Inv committed)
    (hRely : ∀ i owned, P.rely i owned s.server.toCommitted committed) (hRows : committed.rows = s.server.rows)
    (hClock : s.server.clock ≤ committed.clock) :
    P.Good guard A { s with server := { s.server with toCommitted := committed } } where
  inv := hInv
  secure hClient := (h.secure hClient).since ⟨hInv, id, fun _ => congrArg (Rows.row · _) hRows, hClock, hRely _ _⟩
  locked hClient hTxn := h.locked hClient hTxn

theorem Good.step (h : P.Good guard A s)
    (hProgram : ∀ i call server, admits call → P.Inv server.toCommitted →
      P.Secure i (guard i) (A i call) (fun _ _ _ => True) (program call) none server)
    (hAllowed : System.Allowed admits guard s event) (hStep : System.step engine program s event = some s') :
    P.Good guard A s' := by
  cases event with
  | start i call =>
    cases hClient : s.client i with
    | some client => simp [System.step, hClient] at hStep
    | none =>
      simp only [System.step, hClient, Option.some.injEq] at hStep
      subst hStep
      constructor
      · exact h.inv
      · intro j client hStarted
        by_cases hne : j = i
        · subst hne
          simp only [Function.update_self, Option.some.injEq] at hStarted
          subst hStarted
          exact hProgram j call _ hAllowed h.inv
        · simp only [Function.update_of_ne hne] at hStarted
          exact h.secure hStarted
      · intro j client t hStarted hTxn
        by_cases hne : j = i
        · subst hne
          simp only [Function.update_self, Option.some.injEq] at hStarted
          subst hStarted
          cases hTxn
        · simp only [Function.update_of_ne hne] at hStarted
          exact h.locked hStarted hTxn
  | advance i choice =>
    obtain ⟨client, hClient, hStep⟩ := Option.bind_eq_some_iff.mp hStep
    cases hCall : client.program with
    | done result =>
      simp only [System.advance, hCall, Option.some.injEq] at hStep
      exact hStep ▸ h.retire i
    | call op next =>
      simp only [System.advance, hCall] at hStep
      obtain ⟨⟨reply, txn, server⟩, hReply, rfl⟩ := Option.map_eq_some_iff.mp hStep
      exact h.answered hClient hCall (hAllowed client op next hClient hCall) hReply
  | stop i =>
    obtain ⟨client, _, rfl⟩ := Option.map_eq_some_iff.mp hStep
    exact h.retire i
  | tick time =>
    cases hStep
    obtain ⟨hInv, hRely⟩ := P.tick time h.inv
    exact h.moved hInv hRely rfl (Nat.le_add_right _ _)
  | outside c =>
    obtain ⟨world, hWorld, rfl⟩ := Option.map_eq_some_iff.mp hStep
    obtain ⟨hInv, hRely⟩ := P.outside h.inv hWorld
    exact h.moved hInv hRely rfl (Nat.le_refl _)

theorem Good.rely_step (h : P.Good guard A s) (hAllowed : System.Allowed admits guard s event)
    (hStep : System.step engine program s event = some s') (j : ι) (owned : κ → Prop)
    (hOther : ∀ i, event.client = some i → j ≠ i ∧ ∀ k, owned k → s.server.owner k ≠ some i) :
    P.rely j owned s.server.toCommitted s'.server.toCommitted := by
  cases event with
  | start i call =>
    cases hClient : s.client i with
    | some client => simp [System.step, hClient] at hStep
    | none =>
      simp only [System.step, hClient, Option.some.injEq] at hStep
      exact hStep ▸ P.refl _ _ _
  | advance i choice =>
    obtain ⟨hne, hFree⟩ := hOther i rfl
    obtain ⟨client, hClient, hStep⟩ := Option.bind_eq_some_iff.mp hStep
    cases hCall : client.program with
    | done result =>
      simp only [System.advance, hCall, Option.some.injEq] at hStep
      exact hStep ▸ (P.halt i h.inv).2 j owned hne
    | call op next =>
      simp only [System.advance, hCall] at hStep
      obtain ⟨⟨reply, txn, server⟩, hReply, rfl⟩ := Option.map_eq_some_iff.mp hStep
      exact (h.next hClient hCall (hAllowed client op next hClient hCall) hReply).1.rely j owned hne hFree
  | stop i =>
    obtain ⟨client, _, rfl⟩ := Option.map_eq_some_iff.mp hStep
    exact (P.halt i h.inv).2 j owned (hOther i rfl).1
  | tick time =>
    cases hStep
    exact (P.tick time h.inv).2 j owned
  | outside c =>
    obtain ⟨world, hWorld, rfl⟩ := Option.map_eq_some_iff.mp hStep
    exact (P.outside h.inv hWorld).2 j owned

theorem good_of_run {initial : Server V ι γ} (hInitial : P.Inv initial.toCommitted)
    (hProgram : ∀ i call server, admits call → P.Inv server.toCommitted →
      P.Secure i (guard i) (A i call) (fun _ _ _ => True) (program call) none server)
    {events : List (Event ι δ χ Call)}
    (run : (System.machine engine program initial).Run (System.Allowed admits guard) events s) : P.Good guard A s := by
  refine run.invariant (I := P.Good guard A) ?_ ?_
  · exact ⟨hInitial, fun h => (nomatch h), fun h => (nomatch h)⟩
  · exact fun _ _ _ hGood hAllowed hStep => hGood.step hProgram hAllowed hStep

end Protocol

end Sql
