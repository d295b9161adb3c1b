import GhostApi.Hosted.Outbox

/-!
# Dispatchers of the outbox

Any number of dispatchers lease events, publish them and note what came of it.
A dispatcher that knows its leases keeps the protocol, as long as the events
that are given up are closed.
-/

namespace GhostApi.Hosted

open Js Sql Sql.Protocol Effect Transition

def dispatches (maxAttempts : Nat) : Protocol engine where
  Inv := Dispatching maxAttempts
  rely i _ := Onward maxAttempts i
  refl i _ c := .refl maxAttempts i c
  trans h h' := h.trans h'
  anti _ h := h
  tick {c} _ h := ⟨⟨h.unique, h.payload, h.bound, h.dispatched, h.closed, h.numbered, h.nodup⟩,
    fun i _ => ⟨fun hRow => ⟨_, hRow, rfl, Nat.le_refl _, id⟩, id, fun _ h _ => h, fun _ h _ => h, id⟩⟩
  outside {c x world} h hDrift := by
    cases x with
    | settle eventId attempt success =>
      cases hDrift
      obtain ⟨hInv, hOnward⟩ := dispatching_settle h eventId attempt success
      exact ⟨hInv, fun i _ => hOnward i⟩
    | _ => cases hDrift
  halt {c} j h := by
    obtain ⟨hInv, hOnward⟩ := dispatching_filter h fun lease => lease.holder != j
    exact ⟨hInv, fun i _ hne => hOnward i fun lease _ hHolder => by simp [hHolder, hne]⟩

/-- An event is given up only when nobody is going to call for it and no call for it has succeeded or is under
way, and is put back only when it was not dispatched. -/
def settledFirst : Guard := fun _ op session => match op, session with
  | .query (.deadLetterEvent maxAttempts e), (some t, s) => ∀ event : OutboxEvent,
    (s.rows.apply t.writes).row (.outboxEvent e) = some event → isExhausted maxAttempts event = true → Quiet s.world e
  | .query (.updateEventFailed e exhausted _), (some t, s) => if exhausted = true then Quiet s.world e else
    ∀ event : OutboxEvent, (s.rows.apply t.writes).row (.outboxEvent e) = some event → event.dispatchedAt = none
  | _, _ => True

section Dispatchers

variable {maxAttempts : Nat} {i : ClientId} {start s s' : Server} {writes : List Write} {e r : Uuid}

/-! ### Leasing -/

/-- A transaction that gives closed events up, and their reports. -/
def Sweeps (maxAttempts : Nat) (i : ClientId) (writes : List Write) (s : Server) : Prop :=
  ∀ change ∈ writes, DispatchWrite maxAttempts s.toCommitted change ∧ s.owner change.key = some i ∧
    ∀ e, change.key = .outboxEvent e → Closed maxAttempts s.toCommitted e

def GivesUp (maxAttempts : Nat) (reports : List Uuid) (s : Server) : Prop :=
  ∀ r ∈ reports, ∀ e, EventOf s.rows e r → Closed maxAttempts s.toCommitted e

theorem DispatchWrite.since {change : Write} (h : DispatchWrite maxAttempts s.toCommitted change)
    (hOwner : s.owner change.key = some i) (hSince : (dispatches maxAttempts).Since i s s') :
    DispatchWrite maxAttempts s'.toCommitted change := by
  cases h with
  | event hRow hAdvance => exact .event ((hSince.rows hOwner).trans hRow) (hAdvance.onward hSince.rely)
  | report report hClosed =>
    exact .report report fun e hEvent => hSince.rely.closed (hClosed e (hSince.rely.known hEvent))

theorem Sweeps.since (h : Sweeps maxAttempts i writes s) (hSince : (dispatches maxAttempts).Since i s s') :
    Sweeps maxAttempts i writes s' := by
  intro change hMem
  obtain ⟨hWrite, hOwner, hClosed⟩ := h change hMem
  exact ⟨hWrite.since hOwner hSince, hSince.owned hOwner, fun e hKey => hSince.rely.closed (hClosed e hKey)⟩

theorem Sweeps.nil (s : Server) : Sweeps maxAttempts i [] s := by
  intro change hMem
  cases hMem

theorem Sweeps.lock (h : Sweeps maxAttempts i writes s) (hInv : Dispatching maxAttempts s.toCommitted)
    (keys : List Key) : Sweeps maxAttempts i writes (s.lock i keys) :=
  h.since (Since.lock (show (dispatches maxAttempts).Inv s.toCommitted from hInv) keys)

theorem Sweeps.concat {change : Write} {keys : List Key} (h : Sweeps maxAttempts i writes s)
    (hInv : Dispatching maxAttempts s.toCommitted) (hWrite : DispatchWrite maxAttempts s.toCommitted change)
    (hClosed : ∀ e, change.key = .outboxEvent e → Closed maxAttempts s.toCommitted e) (hLocked : change.key ∈ keys) :
    Sweeps maxAttempts i (writes ++ [change]) (s.lock i keys) := by
  intro other hMem
  rcases List.mem_append.mp hMem with hMem | hMem
  · exact h.lock hInv keys other hMem
  · cases List.mem_singleton.mp hMem
    exact ⟨hWrite, owner_lock_of_mem hLocked, hClosed⟩

theorem GivesUp.since {reports : List Uuid} (h : GivesUp maxAttempts reports s)
    (hSince : (dispatches maxAttempts).Since i s s') : GivesUp maxAttempts reports s' :=
  fun r hMem e hEvent => hSince.rely.closed (h r hMem e (hSince.rely.known hEvent))

theorem givesUp_of_closed {event : OutboxEvent} {reports : List Uuid} (hInv : Dispatching maxAttempts s.toCommitted)
    (hEvent : EventOf s.rows e event.aggregateId) (hClosed : Closed maxAttempts s.toCommitted e)
    (hReports : GivesUp maxAttempts reports s) : GivesUp maxAttempts (event.aggregateId :: reports) s := by
  intro r hMem e' hEvent'
  rcases List.mem_cons.mp hMem with rfl | hMem
  · exact hInv.unique hEvent hEvent' ▸ hClosed
  · exact hReports r hMem e' hEvent'

theorem deadLetterEach_within (found : List Uuid) (hInv : Dispatching maxAttempts s.toCommitted)
    (hSweeps : Sweeps maxAttempts i writes s) : (dispatches maxAttempts).Within i (settledFirst i) {} start
      (fun reports writes' s' => (dispatches maxAttempts).Since i s s' ∧ Sweeps maxAttempts i writes' s' ∧
        GivesUp maxAttempts reports s') (deadLetterEach maxAttempts found) writes s := by
  induction found generalizing writes s with
  | nil => exact .pure ⟨.refl hInv, hSweeps, nofun⟩
  | cons id rest ih =>
    refine .query fun s₁ answered outcome hSince hGuard hRun _ hReply => ?_
    have hSweeps₁ := hSweeps.since hSince
    obtain ⟨event', hView, hExhausted, rfl⟩ | ⟨_, rfl⟩ := update_spec hRun
    · cases hReply
      have hQuiet : Quiet s₁.world id := hGuard event' hView hExhausted
      obtain ⟨hUndispatched, _, hAttempts⟩ : event'.dispatchedAt = none ∧ event'.status ≠ .deadLetter ∧
          maxAttempts ≤ event'.attempts := by simpa [isExhausted, and_assoc] using hExhausted
      obtain ⟨event, hRow, hAdvance, hOld⟩ := stored_of_view hSince.inv (fun change hMem => (hSweeps₁ change hMem).1) hView
      have hClosed : Closed maxAttempts s₁.toCommitted id := by
        rcases hOld with rfl | hMem
        · exact ⟨hQuiet, event', hRow, hAttempts⟩
        · exact (hSweeps₁ _ hMem).2.2 id rfl
      have hNew : Advance maxAttempts s₁.toCommitted id event { event' with
          status := .deadLetter, deadLetteredAt := some start.clock, leaseExpiresAt := none,
          lastError := some (event'.lastError.getD "dispatch_attempts_exhausted") } :=
        ⟨hAdvance.aggregate, hAdvance.payload, hAdvance.attempts, hAdvance.bound, hAdvance.kept,
          fun hSet => absurd hUndispatched hSet, fun _ => hClosed⟩
      have hSince₂ := hSince.trans (.lock hSince.inv [.outboxEvent id, .outboxEvent id])
      have hSweeps₂ := hSweeps₁.concat hSince.inv (.event hRow hNew) (by rintro _ ⟨⟩; exact hClosed)
        (List.mem_cons_self (l := [Key.outboxEvent id]))
      refine (ih hSince₂.inv hSweeps₂).bind fun reports writes' s' ⟨hSince', hSweeps', hGivesUp⟩ => .pure ?_
      have hLast := hSince'.after_lock.rely
      exact ⟨hSince₂.trans hSince', hSweeps', givesUp_of_closed hSince'.inv
        (hLast.eventOf ⟨event, hRow, hAdvance.aggregate.symm⟩) (hLast.closed hClosed) hGivesUp⟩
    · cases hReply
      have hSince₂ := hSince.trans (.lock hSince.inv [])
      have hSweeps₂ : Sweeps maxAttempts i (writes ++ []) (s₁.lock i []) := by
        rw [List.append_nil]
        exact hSweeps.since hSince₂
      exact (ih hSince₂.inv hSweeps₂).bind fun reports writes' s' ⟨hSince', hDone⟩ => .pure ⟨hSince₂.trans hSince', hDone⟩

theorem failEach_within (reports : List Uuid) (hInv : Dispatching maxAttempts s.toCommitted)
    (hSweeps : Sweeps maxAttempts i writes s) (hGivesUp : GivesUp maxAttempts reports s) :
    (dispatches maxAttempts).Within i (settledFirst i) {} start
      (fun _ writes' s' => (dispatches maxAttempts).Since i s s' ∧ Sweeps maxAttempts i writes' s')
      (failEach reports) writes s := by
  induction reports generalizing writes s with
  | nil => exact .pure ⟨.refl hInv, hSweeps⟩
  | cons r rest ih =>
    refine .query fun s₁ _ outcome hSince _ hRun _ _ => ?_
    have hGivesUp₁ := hGivesUp.since hSince
    have hRest : ∀ keys, GivesUp maxAttempts rest (s₁.lock i keys) := fun keys r' hMem =>
      hGivesUp₁ r' (List.mem_cons_of_mem r hMem)
    obtain ⟨report, _, _, rfl⟩ | ⟨_, rfl⟩ := update_spec hRun
    · have hSince₂ := hSince.trans (.lock hSince.inv [.report r, .report r])
      have hSweeps₂ := (hSweeps.since hSince).concat hSince.inv
        (.report { report with
          status := .failed, completedAt := some start.clock, failureCode := some "dispatch_attempts_exhausted" }
          (hGivesUp₁ r List.mem_cons_self)) (by rintro _ ⟨⟩) (List.mem_cons_self (l := [Key.report r]))
      exact (ih hSince₂.inv hSweeps₂ (hRest _)).mono fun _ writes' s' ⟨hSince', hDone⟩ => ⟨hSince₂.trans hSince', hDone⟩
    · have hSince₂ := hSince.trans (.lock hSince.inv [])
      have hSweeps₂ : Sweeps maxAttempts i (writes ++ []) (s₁.lock i []) := by
        rw [List.append_nil]
        exact hSweeps.since hSince₂
      exact (ih hSince₂.inv hSweeps₂ (hRest _)).mono fun _ writes' s' ⟨hSince', hDone⟩ => ⟨hSince₂.trans hSince', hDone⟩

/-- What a dispatcher knows of an event that it attempts to dispatch. -/
structure Knows (event : LeasedEvent) (s : Server) : Prop where
  attempts : ∃ stored : OutboxEvent, s.rows.row (.outboxEvent event.id) = some stored ∧
    event.attempts ≤ stored.attempts
  report : ∀ r, event.payload.reportId = some r → EventOf s.rows event.id r

/-- A dispatcher holds the leases of the events that it has yet to call for. -/
structure Holds (i : ClientId) (events : List LeasedEvent) (s : Server) : Prop where
  nodup : (events.map LeasedEvent.id).Nodup
  leases : ∀ event ∈ events, ⟨i, event.id, event.attempts⟩ ∈ s.world.leases
  knows : ∀ event ∈ events, Knows event s

theorem Knows.onward {event : LeasedEvent} (h : Knows event s)
    (hOnward : Onward maxAttempts i s.toCommitted s'.toCommitted) : Knows event s' where
  attempts := by
    obtain ⟨stored, hRow, hAttempts⟩ := h.attempts
    obtain ⟨stored', hRow', _, hLe, _⟩ := hOnward.events hRow
    exact ⟨stored', hRow', Nat.le_trans hAttempts hLe⟩
  report r hr := hOnward.eventOf (h.report r hr)

theorem Knows.of_rows {event : LeasedEvent} (h : Knows event s) (hRows : s'.rows = s.rows) : Knows event s' :=
  ⟨hRows ▸ h.attempts, hRows ▸ h.report⟩

theorem Holds.later {events : List LeasedEvent} (h : Holds i events s)
    (hLater : (dispatches maxAttempts).Later i s s') : Holds i events s' where
  nodup := h.nodup
  leases event hMem := hLater.rely.leases _ (h.leases event hMem) rfl
  knows event hMem := (h.knows event hMem).onward hLater.rely

/-- A transaction that has swept the closed events and then leased due ones. -/
structure Leases (maxAttempts : Nat) (i : ClientId) (leased : List LeasedEvent) (writes : List Write) (s : Server) :
    Prop where
  allowed : ∀ change ∈ writes, DispatchWrite maxAttempts s.toCommitted change ∧ s.owner change.key = some i
  next : ∀ event ∈ leased, LeasesNext s.toCommitted writes event ∧ s.owner (.outboxEvent event.id) = some i ∧
    ∃ stored : OutboxEvent, s.rows.row (.outboxEvent event.id) = some stored ∧ event.payload = stored.payload
  nodup : (leased.map LeasedEvent.id).Nodup

theorem Leases.since {leased : List LeasedEvent} (h : Leases maxAttempts i leased writes s)
    (hSince : (dispatches maxAttempts).Since i s s') : Leases maxAttempts i leased writes s' where
  allowed change hMem :=
    ⟨(h.allowed change hMem).1.since (h.allowed change hMem).2 hSince, hSince.owned (h.allowed change hMem).2⟩
  next event hMem := by
    obtain ⟨⟨old, hRow, hNext⟩, hOwner, stored, hStored, hPayload⟩ := h.next event hMem
    have hSame := hSince.rows hOwner
    exact ⟨⟨old, hSame.trans hRow, hNext⟩, hSince.owned hOwner, stored, hSame.trans hStored, hPayload⟩
  nodup := h.nodup

theorem leases_of_sweeps {now limit : Nat} {busy : Key → Bool} {outcome : Result (List LeasedEvent)}
    {leased : List LeasedEvent} (hInv : Dispatching maxAttempts s.toCommitted) (hSweeps : Sweeps maxAttempts i writes s)
    (h : leaseEvents (s.rows.apply writes) now busy limit maxAttempts = outcome) (hReply : outcome.reply = .ok leased) :
    Leases maxAttempts i leased (writes ++ outcome.writes) (s.lock i outcome.keys) := by
  obtain ⟨picked, hNodup, hPicked, rfl⟩ := leaseEvents_spec h
  cases hReply
  have hStored : ∀ id event, (id, event) ∈ picked → s.rows.row (.outboxEvent id) = some event ∧
      isDue now maxAttempts event = true ∧ ∀ event', set (.outboxEvent id) event' ∉ writes := by
    intro id event hMem
    obtain ⟨hView, hDue⟩ := hPicked id event hMem
    have hOpen : event.attempts < maxAttempts := by simp [isDue] at hDue; exact hDue.1.2
    obtain ⟨stored, hRow, hAdvance, hOld⟩ := stored_of_view hInv (fun change hMem => (hSweeps change hMem).1) hView
    have hUnwritten : ∀ event', set (.outboxEvent id) event' ∉ writes := by
      intro event' hWritten
      obtain ⟨_, other, hOther, hAttempts⟩ := (hSweeps _ hWritten).2.2 id rfl
      cases hRow.symm.trans hOther
      exact absurd (Nat.le_trans hAttempts hAdvance.attempts) (Nat.not_le.mpr hOpen)
    rcases hOld with rfl | hWritten
    · exact ⟨hRow, hDue, hUnwritten⟩
    · exact absurd hWritten (hUnwritten event)
  have hVersion : ∀ id event event', (id, event) ∈ picked →
      set (.outboxEvent id) event' ∈ picked.map (fun pick => set (.outboxEvent pick.1) (pick.2.leased now)) →
      event' = event.leased now := by
    intro id event event' hMem hWritten
    obtain ⟨⟨id', other⟩, hOther, hSame⟩ := List.mem_map.mp hWritten
    cases hSame
    cases List.inj_on_of_nodup_map hNodup hMem hOther rfl
    rfl
  constructor
  · intro change hMem
    rcases List.mem_append.mp hMem with hMem | hMem
    · obtain ⟨hWrite, hOwner, _⟩ := hSweeps.lock hInv _ change hMem
      exact ⟨hWrite, hOwner⟩
    · refine ⟨?_, owner_lock_of_mem (List.mem_append_right _ (List.mem_map_of_mem hMem))⟩
      obtain ⟨⟨id, event⟩, hPick, rfl⟩ := List.mem_map.mp hMem
      obtain ⟨hRow, hDue, _⟩ := hStored id event hPick
      refine .event hRow ⟨rfl, rfl, Nat.le_succ _, ?_, fun hSet => hSet, ?_, by rintro ⟨⟩⟩
      · simp [isDue] at hDue
        exact hDue.1.2
      · intro hSet
        simp [isDue] at hDue
        exact absurd hDue.1.1.1 hSet
  · intro leased hMem
    obtain ⟨⟨id, event⟩, hPick, rfl⟩ := List.mem_map.mp hMem
    obtain ⟨hRow, hDue, hUnwritten⟩ := hStored id event hPick
    have hWrite : set (.outboxEvent id) (event.leased now) ∈
        picked.map (fun pick => set (.outboxEvent pick.1) (pick.2.leased now)) := List.mem_map.mpr ⟨_, hPick, rfl⟩
    refine ⟨⟨event, hRow, rfl, ⟨_, List.mem_append_right _ hWrite, rfl⟩, fun event' hWritten => ?_⟩, ?_, event, hRow, rfl⟩
    · rcases List.mem_append.mp hWritten with hWritten | hWritten
      · exact absurd hWritten (hUnwritten event')
      · rw [hVersion id event event' hPick hWritten]
        rfl
    · exact owner_lock_of_mem (List.mem_append_right _ (List.mem_map_of_mem (f := Change.key) hWrite))
  · rw [List.map_map]
    exact hNodup

theorem closes_leased {leased : List LeasedEvent} (h : Leases maxAttempts i leased writes s) :
    (dispatches maxAttempts).Closes i (settledFirst i) {} start (.leased leased) (Holds i leased) writes s := by
  intro s₁ hSince _
  have h₁ := h.since hSince
  have hWrites : ∀ change ∈ writes, DispatchWrite maxAttempts s₁.toCommitted change :=
    fun change hMem => (h₁.allowed change hMem).1
  obtain ⟨hInv, hOnward⟩ :=
    dispatching_commit (i := i) hSince.inv hWrites (fun event hMem => (h₁.next event hMem).1) h₁.nodup
  refine ⟨trivial, fun _ => ⟨⟨hInv, fun j _ _ _ => hOnward j⟩, h₁.nodup, fun event hMem => ?_, fun event hMem => ?_⟩⟩
  · exact List.mem_append_right _ (List.mem_map.mpr ⟨event, hMem, rfl⟩)
  · obtain ⟨hNext, _, stored, hRow, hPayload⟩ := h₁.next event hMem
    obtain ⟨_, event', _, _, _, hView, hAttempts⟩ := view_of_leasesNext hSince.inv hWrites hNext
    refine ⟨⟨event', hView, Nat.le_of_eq hAttempts.symm⟩, fun r hReport => ?_⟩
    rw [hPayload, hSince.inv.payload hRow] at hReport
    cases hReport
    exact (hOnward i).eventOf ⟨stored, hRow, rfl⟩

theorem leaseOutbox_within {limit : Nat} :
    (dispatches maxAttempts).Within i (settledFirst i) {} start
      (fun leased => (dispatches maxAttempts).Closes i (settledFirst i) {} start (.leased leased) (Holds i leased))
      (leaseOutbox maxAttempts limit) [] start := by
  unfold leaseOutbox
  refine .query fun s₁ found outcome hSince₁ _ hRun₁ _ hReply₁ => ?_
  cases hRun₁
  refine (deadLetterEach_within found hSince₁.inv (Sweeps.nil _)).bind fun exhausted writes₂ s₂ ⟨hSince₂, hSweeps₂, hGivesUp₂⟩ => ?_
  refine (failEach_within exhausted hSince₂.inv hSweeps₂ hGivesUp₂).bind fun _ writes₃ s₃ ⟨hSince₃, hSweeps₃⟩ => ?_
  refine .last fun s₄ leased outcome hSince₄ _ hRun₄ _ hReply₄ => ?_
  exact closes_leased (leases_of_sweeps hSince₄.inv (hSweeps₃.since hSince₄) hRun₄ hReply₄)

/-! ### Publishing -/

theorem primary_secure {q : Query} (Fact : Server → Prop)
    (hFact : ∀ {s s'}, Fact s → (dispatches maxAttempts).Later i s s' → Fact s')
    (h : ∀ s₁ outcome a now, (dispatches maxAttempts).Later i s s₁ →
      settledFirst i (.query q) (some ⟨now, [], false⟩, s₁) → execute q now (s₁.busy i) s₁.rows = outcome →
      outcome.reply = .ok a → Fact s₁ ∧ ∀ change ∈ outcome.writes, DispatchWrite maxAttempts s₁.toCommitted change) :
    (dispatches maxAttempts).Secure i (settledFirst i) {} (fun result t s' => t = none ∧
      (dispatches maxAttempts).Later i s s' ∧ ∀ a, result = .ok a → Fact s') (primary q) none s := by
  refine secure_transaction (fun s₁ hLater => ?_) fun _ _ hLater => ⟨rfl, hLater, fun _ h => nomatch h⟩
  refine .last fun s₂ a outcome hSince hGuard hRun _ hReply => ?_
  intro s₃ hSince₃ _
  obtain ⟨hKnown, hWrites⟩ := h s₂ outcome a _ (hLater.trans hSince.later) hGuard hRun hReply
  have hWrites₃ : ∀ change ∈ outcome.writes, DispatchWrite maxAttempts s₃.toCommitted change := fun change hMem =>
    DispatchWrite.since (s := s₂.lock i outcome.keys) (hWrites change hMem)
      (owner_lock_of_mem (List.mem_append_right _ (List.mem_map_of_mem hMem))) hSince₃
  obtain ⟨hInv, hOnward⟩ := dispatching_commit_plain hSince₃.inv hWrites₃
  have hCommit : (dispatches maxAttempts).Later i s₂ (s₃.commit engine i outcome.writes .plain) :=
    hSince₃.after_lock.later.trans ⟨hInv, Nat.le_refl _, hOnward i⟩
  have hDone := (hLater.trans hSince.later).trans hCommit
  refine ⟨trivial, fun _ => ⟨⟨hInv, fun j _ _ _ => hOnward j⟩, ⟨rfl, hDone, fun _ _ => hFact hKnown hCommit⟩, ?_⟩⟩
  exact fun _ s₄ hLast => ⟨rfl, hDone.trans hLast, fun _ h => nomatch h⟩

theorem updateEventDispatched_secure {event : LeasedEvent} (hSucceeded : Succeeded s.world event.id) :
    (dispatches maxAttempts).Secure i (settledFirst i) {} (fun _ t s' => t = none ∧
      (dispatches maxAttempts).Later i s s') (primary (.updateEventDispatched event.id)) none s := by
  refine (primary_secure (fun _ => True) (fun _ _ => trivial) fun s₁ outcome a now hLater _ hRun _ => ⟨trivial, ?_⟩).mono
    fun _ _ _ h => ⟨h.1, h.2.1⟩
  have hSucceeded₁ : Succeeded s₁.world event.id := hLater.rely.succeeded hSucceeded
  obtain ⟨stored, hRow, _, rfl⟩ | ⟨_, rfl⟩ := update_spec hRun
  · intro change hMem
    cases List.mem_singleton.mp hMem
    have hBound : stored.attempts ≤ maxAttempts := hLater.inv.bound hRow
    exact .event hRow ⟨rfl, rfl, Nat.le_refl _, hBound, nofun, fun _ => ⟨rfl, hSucceeded₁⟩, nofun⟩
  · exact nofun

theorem succeeded_of_hasCall {world : World} {attempt : Nat} (h : world.hasCall e attempt .succeeded = true) :
    Succeeded world e := by
  obtain ⟨call, hMem, hCall⟩ := List.any_eq_true.mp h
  simp only [Bool.and_eq_true, beq_iff_eq] at hCall
  exact ⟨call, hMem, hCall.1.1, hCall.2⟩

theorem holds_publish {event : LeasedEvent} {rest : List LeasedEvent} (h : Holds i (event :: rest) s) :
    Holds i rest { s with world := s.world.publish i event } where
  nodup := (List.nodup_cons.mp h.nodup).2
  leases other hMem := by
    refine List.mem_filter.mpr ⟨h.leases other (List.mem_cons_of_mem event hMem), ?_⟩
    have hne : other.id ≠ event.id := fun hSame =>
      (List.nodup_cons.mp h.nodup).1 (hSame ▸ List.mem_map_of_mem hMem)
    simp [hne]
  knows other hMem := (h.knows other (List.mem_cons_of_mem event hMem)).of_rows rfl

theorem publishEvent_secure {event : LeasedEvent} {rest : List LeasedEvent} (h : Holds i (event :: rest) s) :
    (dispatches maxAttempts).Secure i (settledFirst i) {}
      (fun _ t s' => t = none ∧ Holds i rest s' ∧ Knows event s') (publishEvent event) none s := by
  refine secure_external fun s₁ c reply world hSince₁ _ hAnswer₁ => ?_
  have h₁ := h.later hSince₁.later
  cases c with
  | call =>
    cases hAnswer₁
    obtain ⟨hInv, hOnward⟩ := dispatching_publish hSince₁.inv (h₁.leases event List.mem_cons_self)
    refine ⟨⟨hInv, fun j _ hne _ => hOnward j hne⟩, secure_external fun s₂ c reply world hSince₂ _ hAnswer₂ => ?_⟩
    have h₂ : Holds i rest s₂ := (holds_publish h₁).later hSince₂.later
    have hKnows₁ : Knows event { s₁ with world := s₁.world.publish i event } :=
      (h₁.knows event List.mem_cons_self).of_rows rfl
    have hKnows₂ : Knows event s₂ := hKnows₁.onward hSince₂.rely
    cases c with
    | call =>
      simp only [engine, answer] at hAnswer₂
      split at hAnswer₂
      · rename_i hCall
        cases hAnswer₂
        refine ⟨.of_committed hSince₂.inv rfl, .bind ((updateEventDispatched_secure (succeeded_of_hasCall hCall)).mono ?_)⟩
        rintro result t s₃ ⟨rfl, hLater⟩
        have hDone : Holds i rest s₃ ∧ Knows event s₃ := ⟨h₂.later hLater, hKnows₂.onward hLater.rely⟩
        cases result with
        | ok a => exact ⟨rfl, hDone⟩
        | error e => exact ⟨rfl, hDone⟩
      · cases hAnswer₂
    | throws message =>
      simp only [engine, answer] at hAnswer₂
      split at hAnswer₂
      · cases hAnswer₂
        exact ⟨.of_committed hSince₂.inv rfl, rfl, h₂, hKnows₂⟩
      · cases hAnswer₂
    | _ => cases hAnswer₂
  | _ => cases hAnswer₁

theorem updateEventFailed_secure {event : LeasedEvent} {failureCode : String} (hKnows : Knows event s) :
    (dispatches maxAttempts).Secure i (settledFirst i) {} (fun result t s' => t = none ∧
      (dispatches maxAttempts).Later i s s' ∧ ∀ a, result = .ok a → maxAttempts ≤ event.attempts →
        Closed maxAttempts s'.toCommitted event.id)
      (primary (.updateEventFailed event.id (maxAttempts ≤ event.attempts) failureCode)) none s := by
  refine primary_secure (fun s => maxAttempts ≤ event.attempts → Closed maxAttempts s.toCommitted event.id)
    (fun h hLater hExhausted => hLater.rely.closed (h hExhausted)) fun s₁ outcome a now hLater hGuard hRun _ => ?_
  obtain ⟨known, hKnown, hAttempts⟩ := (hKnows.onward hLater.rely).attempts
  obtain ⟨stored, hRow, _, rfl⟩ | ⟨hNone, _⟩ := update_spec hRun
  swap
  · cases hNone known hKnown
  cases hKnown.symm.trans hRow
  have hClosed : maxAttempts ≤ event.attempts → Closed maxAttempts s₁.toCommitted event.id := by
    intro hExhausted
    have hQuiet : Quiet s₁.world event.id := by simpa [settledFirst, hExhausted] using hGuard
    exact ⟨hQuiet, known, hRow, Nat.le_trans hExhausted hAttempts⟩
  have hUndispatched : known.dispatchedAt = none := by
    by_cases hExhausted : maxAttempts ≤ event.attempts
    · by_contra hSet
      exact (hClosed hExhausted).1.not_succeeded (hLater.inv.dispatched hRow hSet).2
    · have hPut : ∀ event' : OutboxEvent, s₁.rows.row (.outboxEvent event.id) = some event' →
          event'.dispatchedAt = none := by simpa [settledFirst, hExhausted] using hGuard
      exact hPut known hRow
  refine ⟨hClosed, fun change hMem => ?_⟩
  cases List.mem_singleton.mp hMem
  have hBound : known.attempts ≤ maxAttempts := hLater.inv.bound hRow
  refine .event hRow ⟨rfl, rfl, Nat.le_refl _, hBound, fun h => h, fun h => absurd hUndispatched h, fun hStatus => ?_⟩
  refine hClosed ?_
  by_contra hOpen
  simp [hOpen] at hStatus

theorem noteFailure_secure {event : LeasedEvent} {rest : List LeasedEvent} (error : Failure) (hHolds : Holds i rest s)
    (hKnows : Knows event s) : (dispatches maxAttempts).Secure i (settledFirst i) {}
      (fun result t s' => result = .ok () → t = none ∧ Holds i rest s') (noteFailure maxAttempts event error) none s := by
  refine .bind ((updateEventFailed_secure hKnows).mono ?_)
  rintro result t s₁ ⟨rfl, hLater, hClosed⟩
  cases result with
  | error e => exact nofun
  | ok a =>
    have hHolds₁ := hHolds.later hLater
    have hKnows₁ := hKnows.onward hLater.rely
    cases hReport : event.payload.reportId with
    | none => exact fun _ => ⟨rfl, hHolds₁⟩
    | some r =>
      dsimp only
      split
      · rename_i hExhausted
        have hGivesUp : GivesUp maxAttempts [r] s₁ := by
          intro r' hMem e hEvent
          cases List.mem_singleton.mp hMem
          exact hLater.inv.unique (hKnows₁.report r hReport) hEvent ▸ hClosed a rfl hExhausted
        refine .bind ((primary_secure (fun _ => True) (fun _ _ => trivial) fun s₂ outcome a now hLater₂ _ hRun _ => ?_).mono ?_)
        · refine ⟨trivial, fun change hMem => ?_⟩
          obtain ⟨report, _, _, rfl⟩ | ⟨_, rfl⟩ := update_spec hRun
          · cases List.mem_singleton.mp hMem
            exact .report _ fun e hEvent =>
              hLater₂.rely.closed (hGivesUp r (List.mem_singleton_self r) e (hLater₂.rely.known hEvent))
          · cases hMem
        · rintro result t s₂ ⟨rfl, hLater₂, _⟩
          cases result with
          | ok a => exact fun _ => ⟨rfl, hHolds₁.later hLater₂⟩
          | error e => exact nofun
      · exact fun _ => ⟨rfl, hHolds₁⟩

theorem publishEach_secure {events : List LeasedEvent} (h : Holds i events s) :
    (dispatches maxAttempts).Secure i (settledFirst i) {} (fun _ _ _ => True) (publishEach maxAttempts events) none s := by
  induction events generalizing s with
  | nil => trivial
  | cons event rest ih =>
    refine .bind (Secure.mono (Q := fun result t s => result = .ok () → t = none ∧ Holds i rest s) (.tryCatch
      ((publishEvent_secure h).mono ?_)) fun result t s hDone => ?_)
    · rintro result t s₁ ⟨rfl, hHolds, hKnows⟩
      cases result with
      | ok a => exact fun _ => ⟨rfl, hHolds⟩
      | error e => exact noteFailure_secure e hHolds hKnows
    · cases result with
      | error e => trivial
      | ok a =>
        obtain ⟨rfl, hHolds⟩ := hDone rfl
        exact ih hHolds

theorem dispatchOutbox_secure {limit : Nat} : (dispatches maxAttempts).Secure i (settledFirst i) {} (fun _ _ _ => True)
    (Call.dispatchOutbox maxAttempts limit).program none s := by
  refine .bind (Secure.mono (Q := fun _ _ _ => True) (.bind (Secure.mono (Q := fun result t s =>
    ∀ events, result = .ok events → t = none ∧ Holds i events s) (secure_transaction (fun s₁ hLater => ?_)
      fun _ _ _ _ h => nomatch h) fun result t s hResult => ?_)) fun result t s _ => ?_)
  · refine leaseOutbox_within.mono fun leased writes s₂ hClosed s₃ hSince hGuard => ?_
    obtain ⟨hAt, hStep⟩ := hClosed s₃ hSince hGuard
    refine ⟨hAt, fun hDeferred => ⟨(hStep hDeferred).1, ?_, fun _ _ _ _ h => nomatch h⟩⟩
    rintro _ ⟨⟩
    exact ⟨rfl, (hStep hDeferred).2⟩
  · cases result with
    | error e => trivial
    | ok events =>
      obtain ⟨rfl, hHolds⟩ := hResult events rfl
      refine .bind ((publishEach_secure hHolds).mono fun result t s _ => ?_)
      cases result <;> trivial
  · cases result <;> trivial

end Dispatchers

/-! ## Runs of dispatchers -/

structure Undispatched (server : Server) : Prop where
  unique : ∀ {e e' r}, EventOf server.rows e r → EventOf server.rows e' r → e = e'
  event : ∀ {e} {event : OutboxEvent}, server.rows.row (.outboxEvent e) = some event →
    event.payload.reportId = some event.aggregateId ∧ event.status = .pending ∧ event.attempts = 0 ∧
      event.dispatchedAt = none ∧ ¬IsGivenUp server.rows event.aggregateId
  leases : server.world.leases = []
  calls : server.world.calls = []

theorem Undispatched.dispatching {server : Server} (maxAttempts : Nat) (h : Undispatched server) :
    Dispatching maxAttempts server.toCommitted := by
  have hTickets : tickets server.world = [] := by simp [tickets, h.leases, h.calls]
  constructor
  · exact h.unique
  · exact fun hRow => (h.event hRow).1
  · intro e event hRow
    rw [(h.event hRow).2.2.1]
    exact Nat.zero_le _
  · exact fun hRow hSet => absurd (h.event hRow).2.2.2.1 hSet
  · intro e event hRow hEnded
    obtain ⟨_, hStatus, _, _, hOpen⟩ := h.event hRow
    rcases hEnded with hEnded | hEnded
    · cases hStatus.symm.trans hEnded
    · exact absurd hEnded hOpen
  · intro e n hMem
    rw [hTickets] at hMem
    cases hMem
  · rw [hTickets]
    exact .nil

def IsDispatch (maxAttempts : Nat) : Call → Prop
  | .dispatchOutbox attempts _ => attempts = maxAttempts
  | _ => False

section Runs

variable {initial : Server} {maxAttempts : Nat} {events later : List Event} {s s' : System} {e r : Uuid}

theorem dispatches_good (h : Undispatched initial)
    (run : (service initial).Run (System.Allowed (IsDispatch maxAttempts) settledFirst) events s) :
    (dispatches maxAttempts).Good settledFirst (fun _ _ => {}) s := by
  refine good_of_run (h.dispatching maxAttempts) (fun i call server hCall _ => ?_) run
  cases call with
  | dispatchOutbox attempts limit =>
    cases hCall
    exact dispatchOutbox_secure
  | _ => cases hCall

theorem onward_of_step {event : Event} (h : (dispatches maxAttempts).Good settledFirst (fun _ _ => {}) s)
    (hAllowed : System.Allowed (IsDispatch maxAttempts) settledFirst s event)
    (hStep : System.step engine Call.program s event = some s') :
    ∃ i, Onward maxAttempts i s.server.toCommitted s'.server.toCommitted := by
  refine ⟨event.client.getD 0 + 1, h.rely_step hAllowed hStep _ (fun _ => False) fun i hi => ?_⟩
  rw [hi]
  exact ⟨Nat.succ_ne_self i, fun _ h => h.elim⟩

theorem carried_of_runs {K : Committed Row World → Prop} (hK : ∀ {i c c'}, Onward maxAttempts i c c' → K c → K c')
    (h : Undispatched initial)
    (run : (service initial).Run (System.Allowed (IsDispatch maxAttempts) settledFirst) events s)
    (rest : ((service initial).resume s).Run (System.Allowed (IsDispatch maxAttempts) settledFirst) later s')
    (hNow : K s.server.toCommitted) : K s'.server.toCommitted := by
  induction rest with
  | start => exact hNow
  | next before allowed taken ih =>
    obtain ⟨i, hOnward⟩ := onward_of_step (dispatches_good h (run.append before)) allowed taken
    exact hK hOnward ih

/-- The calls of publishJSON for an event. -/
def callsFor (world : World) (e : Uuid) : List PublishCall := world.calls.filter fun call => call.eventId = e

theorem callsFor_length_le {c : Committed Row World} (h : Dispatching maxAttempts c) :
    (callsFor c.world e).length ≤ maxAttempts := by
  have hEvent : ∀ call ∈ callsFor c.world e, call.ticket = (e, call.attempt) := by
    intro call hMem
    have hSame : call.eventId = e := by simpa using (List.mem_filter.mp hMem).2
    rw [PublishCall.ticket, hSame]
  have hNodup : ((callsFor c.world e).map PublishCall.attempt).Nodup := by
    refine List.Nodup.of_map (fun n => (e, n)) ?_
    have hTickets : ((callsFor c.world e).map PublishCall.attempt).map (fun n => (e, n)) =
        (callsFor c.world e).map PublishCall.ticket := by
      rw [List.map_map]
      exact List.map_congr_left fun call hMem => (hEvent call hMem).symm
    rw [hTickets]
    exact (List.nodup_append.mp h.nodup).2.1.sublist (List.filter_sublist.map _)
  have hRange : (callsFor c.world e).map PublishCall.attempt ⊆ List.range' 1 maxAttempts := by
    intro n hMem
    obtain ⟨call, hCall, rfl⟩ := List.mem_map.mp hMem
    have hTicket : (e, call.attempt) ∈ tickets c.world :=
      List.mem_append_right _ (hEvent call hCall ▸ List.mem_map_of_mem (List.mem_filter.mp hCall).1)
    obtain ⟨hPos, event, hRow, hAttempts⟩ := h.numbered hTicket
    have hBound := h.bound hRow
    rw [List.mem_range'_1]
    omega
  simpa using (List.subperm_of_subset hNodup hRange).length_le

end Runs

/-! ### A slow call -/

theorem undispatched_oneReport : Undispatched oneReport := by
  have hOnly : ∀ {e} {event : OutboxEvent}, oneReport.rows.row (.outboxEvent e) = some event →
      e = 2 ∧ event = ⟨1, ⟨1, some 2, some 1⟩, 0, 0, .pending, none, none, none, 0, none⟩ := by
    intro e event hRow
    by_cases hEvent : e = 2
    · subst hEvent
      simp only [oneReport, Rows.apply_cons, Rows.apply_nil, row_set, Option.some.injEq] at hRow
      exact ⟨rfl, hRow.symm⟩
    · simp [oneReport, hEvent, Rows.empty] at hRow
  constructor
  · rintro e e' r ⟨_, hRow, _⟩ ⟨_, hRow', _⟩
    exact (hOnly hRow).1.trans (hOnly hRow').1.symm
  · intro e event hRow
    obtain ⟨rfl, rfl⟩ := hOnly hRow
    refine ⟨rfl, rfl, rfl, rfl, ?_⟩
    rintro ⟨report, hReport, hCode⟩
    simp [oneReport] at hReport
    cases hReport
    cases hCode
  · rfl
  · rfl

def startsDispatch (maxAttempts : Nat) : System → Event → Bool
  | _, .start _ (.dispatchOutbox attempts _) => attempts = maxAttempts
  | _, .start _ _ => false
  | _, _ => true

theorem allowed_of_startsDispatch (maxAttempts : Nat) (s : System) (event : Event)
    (h : startsDispatch maxAttempts s event = true) :
    System.Allowed (IsDispatch maxAttempts) (fun _ _ _ => True) s event := by
  cases event with
  | start i call =>
    cases call with
    | dispatchOutbox attempts limit => simpa [startsDispatch, System.Allowed, IsDispatch] using h
    | _ => cases h
  | advance i choice => exact fun _ _ _ _ _ => trivial
  | _ => trivial

/-- A test for steps that give no event up and put none back. -/
def givesNothingUp (maxAttempts : Nat) (s : System) (event : Event) : Bool := startsDispatch maxAttempts s event &&
  match event with
  | .advance i _ => match s.client i with
    | some client => match client.program with
      | .call (.query (.deadLetterEvent _ _)) _ => false
      | .call (.query (.updateEventFailed _ _ _)) _ => false
      | _ => true
    | none => true
  | _ => true

theorem allowed_of_givesNothingUp (maxAttempts : Nat) (s : System) (event : Event)
    (h : givesNothingUp maxAttempts s event = true) :
    System.Allowed (IsDispatch maxAttempts) settledFirst s event := by
  cases event with
  | start i call =>
    exact allowed_of_startsDispatch maxAttempts s _ (Bool.and_eq_true_iff.mp h).1
  | advance i choice =>
    intro client op next hClient hProgram
    unfold settledFirst
    split
    · simp [givesNothingUp, hClient, hProgram] at h
    · simp [givesNothingUp, hClient, hProgram] at h
    · trivial
  | _ => trivial

def outboxStatus (s : System) : Option OutboxStatus × Bool :=
  ((s.server.rows.row (.outboxEvent 2)).map OutboxEvent.status, s.server.world.hasCall 2 1 .succeeded)

theorem row_of_outboxStatus {s : System} {status : OutboxStatus} (h : (outboxStatus s).1 = some status) :
    ∃ event : OutboxEvent, s.server.rows.row (.outboxEvent 2) = some event ∧ event.status = status :=
  Option.map_eq_some_iff.mp h

def dispatcherCalls : List Event :=
  .start 0 (.dispatchOutbox 1 100) :: advances 0 4 ++ [.advance 0 (.outside .call)]

def callSucceeds : List Event := [.outside (.settle 2 1 true)]

def dispatcherNotes : List Event := .advance 0 (.outside .call) :: advances 0 3

/-- Another dispatcher finds that the attempts of the event are used up. -/
def dispatcherSweeps : List Event := .start 1 (.dispatchOutbox 1 100) :: advances 1 6

end GhostApi.Hosted
