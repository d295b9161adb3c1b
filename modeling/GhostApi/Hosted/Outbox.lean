import GhostApi.Hosted.Calls
import GhostApi.Lib.Sql.Runs

/-!
# Attempts to dispatch an event

Each attempt of an event is leased to one dispatcher, which makes one call of
publishJSON for it. An event is closed when its attempts are used up, nobody
is going to call and each call has failed; it stays closed. Whether an event
that is given up is closed depends on the moment at which that is written.
-/

namespace GhostApi.Hosted

open Js Sql Sql.Protocol Effect Transition

def Lease.ticket (lease : Lease) : Uuid × Nat := (lease.eventId, lease.attempt)

def PublishCall.ticket (call : PublishCall) : Uuid × Nat := (call.eventId, call.attempt)

/-- The attempts that were leased, with those that were made. -/
def tickets (world : World) : List (Uuid × Nat) := world.leases.map Lease.ticket ++ world.calls.map PublishCall.ticket

/-- Nobody is going to call publishJSON for the event, and each call for it has failed. -/
structure Quiet (world : World) (e : Uuid) : Prop where
  leases : ∀ lease ∈ world.leases, lease.eventId ≠ e
  calls : ∀ call ∈ world.calls, call.eventId = e → call.state = .failed

def Closed (maxAttempts : Nat) (c : Committed Row World) (e : Uuid) : Prop :=
  Quiet c.world e ∧ ∃ event : OutboxEvent, c.rows.row (.outboxEvent e) = some event ∧ maxAttempts ≤ event.attempts

def Succeeded (world : World) (e : Uuid) : Prop := ∃ call ∈ world.calls, call.eventId = e ∧ call.state = .succeeded

/-- The failure code of a report that was never dispatched. -/
def IsGivenUp (db : Db) (r : Uuid) : Prop :=
  ∃ report : Report, db.row (.report r) = some report ∧ report.failureCode = some "dispatch_attempts_exhausted"

structure Dispatching (maxAttempts : Nat) (c : Committed Row World) : Prop where
  unique : ∀ {e e' r}, EventOf c.rows e r → EventOf c.rows e' r → e = e'
  payload : ∀ {e} {event : OutboxEvent}, c.rows.row (.outboxEvent e) = some event →
    event.payload.reportId = some event.aggregateId
  bound : ∀ {e} {event : OutboxEvent}, c.rows.row (.outboxEvent e) = some event → event.attempts ≤ maxAttempts
  dispatched : ∀ {e} {event : OutboxEvent}, c.rows.row (.outboxEvent e) = some event → event.dispatchedAt ≠ none →
    event.status = .dispatched ∧ Succeeded c.world e
  closed : ∀ {e} {event : OutboxEvent}, c.rows.row (.outboxEvent e) = some event →
    event.status = .deadLetter ∨ IsGivenUp c.rows event.aggregateId → Closed maxAttempts c e
  numbered : ∀ {e n}, (e, n) ∈ tickets c.world → 0 < n ∧ ∃ event : OutboxEvent,
    c.rows.row (.outboxEvent e) = some event ∧ n ≤ event.attempts
  nodup : (tickets c.world).Nodup

/-- What dispatchers leave to one of them, and to those who watch. -/
structure Onward (maxAttempts : Nat) (i : ClientId) (c c' : Committed Row World) : Prop where
  events : ∀ {e} {event : OutboxEvent}, c.rows.row (.outboxEvent e) = some event → ∃ event' : OutboxEvent,
    c'.rows.row (.outboxEvent e) = some event' ∧ event'.aggregateId = event.aggregateId ∧
      event.attempts ≤ event'.attempts ∧ (event.dispatchedAt ≠ none → event'.dispatchedAt ≠ none)
  known : ∀ {e r}, EventOf c'.rows e r → EventOf c.rows e r
  leases : ∀ lease ∈ c.world.leases, lease.holder = i → lease ∈ c'.world.leases
  settled : ∀ call ∈ c.world.calls, call.state ≠ .pending → call ∈ c'.world.calls
  closed : ∀ {e}, Closed maxAttempts c e → Closed maxAttempts c' e

section States

variable {maxAttempts : Nat} {i : ClientId} {c c' c₁ c₂ c₃ : Committed Row World} {e r : Uuid}

theorem Onward.refl (maxAttempts : Nat) (i : ClientId) (c : Committed Row World) : Onward maxAttempts i c c where
  events hRow := ⟨_, hRow, rfl, Nat.le_refl _, id⟩
  known := id
  leases _ h _ := h
  settled _ h _ := h
  closed := id

theorem Onward.trans (h : Onward maxAttempts i c₁ c₂) (h' : Onward maxAttempts i c₂ c₃) :
    Onward maxAttempts i c₁ c₃ where
  events hRow := by
    obtain ⟨event₂, hRow₂, hAggregate₂, hAttempts₂, hDispatched₂⟩ := h.events hRow
    obtain ⟨event₃, hRow₃, hAggregate₃, hAttempts₃, hDispatched₃⟩ := h'.events hRow₂
    exact ⟨event₃, hRow₃, hAggregate₃.trans hAggregate₂, Nat.le_trans hAttempts₂ hAttempts₃,
      fun hSet => hDispatched₃ (hDispatched₂ hSet)⟩
  known hEvent := h.known (h'.known hEvent)
  leases lease hMem hHolder := h'.leases lease (h.leases lease hMem hHolder) hHolder
  settled call hMem hState := h'.settled call (h.settled call hMem hState) hState
  closed hClosed := h'.closed (h.closed hClosed)

theorem Onward.eventOf (h : Onward maxAttempts i c c') (hEvent : EventOf c.rows e r) : EventOf c'.rows e r := by
  obtain ⟨event, hRow, rfl⟩ := hEvent
  obtain ⟨event', hRow', hAggregate, _⟩ := h.events hRow
  exact ⟨event', hRow', hAggregate⟩

theorem Onward.succeeded (h : Onward maxAttempts i c c') (hSucceeded : Succeeded c.world e) :
    Succeeded c'.world e := by
  obtain ⟨call, hMem, hEvent, hState⟩ := hSucceeded
  exact ⟨call, h.settled call hMem (by simp [hState]), hEvent, hState⟩

theorem Quiet.not_succeeded {world : World} (h : Quiet world e) : ¬Succeeded world e := by
  rintro ⟨call, hMem, hEvent, hState⟩
  cases hState.symm.trans (h.calls call hMem hEvent)

/-! ## What happens outside -/

theorem dispatching_world {world : World} (h : Dispatching maxAttempts c)
    (hTickets : ∀ ticket ∈ tickets world, ticket ∈ tickets c.world) (hNodup : (tickets world).Nodup)
    (hSettled : ∀ call ∈ c.world.calls, call.state ≠ .pending → call ∈ world.calls)
    (hQuiet : ∀ {e}, Closed maxAttempts c e → Quiet world e) :
    Dispatching maxAttempts { c with world := world } ∧
      ∀ i, (∀ lease ∈ c.world.leases, lease.holder = i → lease ∈ world.leases) →
        Onward maxAttempts i c { c with world := world } := by
  have hClosed : ∀ {e}, Closed maxAttempts c e → Closed maxAttempts { c with world := world } e :=
    fun hClosed => ⟨hQuiet hClosed, hClosed.2⟩
  refine ⟨⟨h.unique, h.payload, h.bound, ?_, ?_, ?_, hNodup⟩, fun i hLeases => ⟨?_, id, hLeases, hSettled, hClosed⟩⟩
  · intro e event hRow hSet
    obtain ⟨hStatus, call, hMem, hEvent, hState⟩ := h.dispatched hRow hSet
    exact ⟨hStatus, call, hSettled call hMem (by simp [hState]), hEvent, hState⟩
  · exact fun hRow hStatus => hClosed (h.closed hRow hStatus)
  · exact fun hMem => h.numbered (hTickets _ hMem)
  · exact fun hRow => ⟨_, hRow, rfl, Nat.le_refl _, id⟩

theorem dispatching_filter (h : Dispatching maxAttempts c) (keeps : Lease → Bool) :
    Dispatching maxAttempts { c with world := { c.world with leases := c.world.leases.filter keeps } } ∧
      ∀ i, (∀ lease ∈ c.world.leases, lease.holder = i → keeps lease = true) →
        Onward maxAttempts i c { c with world := { c.world with leases := c.world.leases.filter keeps } } := by
  have hSublist : (tickets { c.world with leases := c.world.leases.filter keeps }).Sublist (tickets c.world) :=
    (List.filter_sublist.map _).append (.refl _)
  obtain ⟨hInv, hOnward⟩ := dispatching_world h (fun _ hMem => hSublist.subset hMem) (h.nodup.sublist hSublist)
    (fun _ hMem _ => hMem) fun hClosed => ⟨fun lease hMem => hClosed.1.leases lease (List.mem_of_mem_filter hMem), hClosed.1.calls⟩
  exact ⟨hInv, fun i hKeeps => hOnward i fun lease hMem hHolder => List.mem_filter.mpr ⟨hMem, hKeeps lease hMem hHolder⟩⟩

theorem dispatching_settle (h : Dispatching maxAttempts c) (eventId : Uuid) (attempt : Nat) (success : Bool) :
    Dispatching maxAttempts { c with world := c.world.settle eventId attempt success } ∧
      ∀ i, Onward maxAttempts i c { c with world := c.world.settle eventId attempt success } := by
  have hTickets : tickets (c.world.settle eventId attempt success) = tickets c.world := by
    unfold tickets World.settle
    congr 1
    rw [List.map_map]
    refine List.map_congr_left fun call _ => ?_
    dsimp only [Function.comp_apply]
    split <;> rfl
  have hSettled : ∀ call ∈ c.world.calls, call.state ≠ .pending →
      call ∈ (c.world.settle eventId attempt success).calls := fun call hMem hState =>
    List.mem_map.mpr ⟨call, hMem, if_neg fun h => hState h.2.2⟩
  have hQuiet : ∀ {e}, Closed maxAttempts c e → Quiet (c.world.settle eventId attempt success) e := by
    refine fun hClosed => ⟨hClosed.1.leases, fun call hMem hEvent => ?_⟩
    obtain ⟨old, hOld, rfl⟩ := List.mem_map.mp hMem
    have hFailed : old.state = .failed := hClosed.1.calls old hOld (by revert hEvent; split <;> exact id)
    rw [if_neg (by simp [hFailed])]
    exact hFailed
  obtain ⟨hInv, hOnward⟩ :=
    dispatching_world h (fun _ hMem => hTickets ▸ hMem) (hTickets ▸ h.nodup) hSettled hQuiet
  exact ⟨hInv, fun i => hOnward i fun _ hMem _ => hMem⟩

theorem dispatching_publish {event : LeasedEvent} (h : Dispatching maxAttempts c)
    (hLease : ⟨i, event.id, event.attempts⟩ ∈ c.world.leases) :
    Dispatching maxAttempts { c with world := c.world.publish i event } ∧
      ∀ j, j ≠ i → Onward maxAttempts j c { c with world := c.world.publish i event } := by
  have hTicket : (event.id, event.attempts) ∈ c.world.leases.map Lease.ticket := List.mem_map.mpr ⟨_, hLease, rfl⟩
  obtain ⟨hLeases, hCalls, hDisjoint⟩ := List.nodup_append.mp h.nodup
  have hSublist : ((c.world.publish i event).leases.map Lease.ticket).Sublist (c.world.leases.map Lease.ticket) :=
    List.filter_sublist.map _
  have hGone : (event.id, event.attempts) ∉ (c.world.publish i event).leases.map Lease.ticket := by
    intro hMem
    obtain ⟨lease, hMem, hSame⟩ := List.mem_map.mp hMem
    obtain ⟨hMem, hKept⟩ := List.mem_filter.mp hMem
    have hEq : lease = ⟨i, event.id, event.attempts⟩ := List.inj_on_of_nodup_map hLeases hMem hLease hSame
    simp [hEq] at hKept
  have hCallsNew : (c.world.publish i event).calls.map PublishCall.ticket =
      c.world.calls.map PublishCall.ticket ++ [(event.id, event.attempts)] := List.map_append
  have hTickets : ∀ ticket ∈ tickets (c.world.publish i event), ticket ∈ tickets c.world := by
    intro ticket hMem
    rw [tickets, hCallsNew, List.mem_append, List.mem_append, List.mem_singleton] at hMem
    rcases hMem with hMem | hMem | rfl
    · exact List.mem_append_left _ (hSublist.subset hMem)
    · exact List.mem_append_right _ hMem
    · exact List.mem_append_left _ hTicket
  have hNodup : (tickets (c.world.publish i event)).Nodup := by
    rw [tickets, hCallsNew]
    refine List.nodup_append.mpr ⟨hLeases.sublist hSublist, ?_, fun ticket hMem ticket' hMem' hSame => ?_⟩
    · refine List.nodup_append.mpr ⟨hCalls, List.nodup_singleton _, fun ticket hMem ticket' hMem' hSame => ?_⟩
      exact hDisjoint _ hTicket _ hMem ((List.mem_singleton.mp hMem').symm.trans hSame.symm)
    · subst hSame
      rcases List.mem_append.mp hMem' with hMem' | hMem'
      · exact hDisjoint _ (hSublist.subset hMem) _ hMem' rfl
      · exact hGone (List.mem_singleton.mp hMem' ▸ hMem)
  have hQuiet : ∀ {e}, Closed maxAttempts c e → Quiet (c.world.publish i event) e := by
    refine fun hClosed => ⟨fun lease hMem => hClosed.1.leases lease (List.mem_of_mem_filter hMem), fun call hMem hCall => ?_⟩
    rcases List.mem_append.mp hMem with hMem | hMem
    · exact hClosed.1.calls call hMem hCall
    · cases List.mem_singleton.mp hMem
      exact absurd hCall (hClosed.1.leases _ hLease)
  obtain ⟨hInv, hOnward⟩ :=
    dispatching_world h hTickets hNodup (fun _ hMem _ => List.mem_append_left _ hMem) hQuiet
  refine ⟨hInv, fun j hne => hOnward j fun lease hMem hHolder => List.mem_filter.mpr ⟨hMem, ?_⟩⟩
  simp [hHolder, hne]

/-! ## Commits -/

structure Advance (maxAttempts : Nat) (c : Committed Row World) (e : Uuid) (event event' : OutboxEvent) : Prop where
  aggregate : event'.aggregateId = event.aggregateId
  payload : event'.payload = event.payload
  attempts : event.attempts ≤ event'.attempts
  bound : event'.attempts ≤ maxAttempts
  kept : event.dispatchedAt ≠ none → event'.dispatchedAt ≠ none
  dispatched : event'.dispatchedAt ≠ none → event'.status = .dispatched ∧ Succeeded c.world e
  closed : event'.status = .deadLetter → Closed maxAttempts c e

/-- What a dispatcher may write; a report only where all its events are closed. -/
inductive DispatchWrite (maxAttempts : Nat) (c : Committed Row World) : Write → Prop
  | event {e : Uuid} {event event' : OutboxEvent} (stored : c.rows.row (.outboxEvent e) = some event)
      (advance : Advance maxAttempts c e event event') : DispatchWrite maxAttempts c (set (.outboxEvent e) event')
  | report {r : Uuid} (report : Report) (closed : ∀ e, EventOf c.rows e r → Closed maxAttempts c e) :
      DispatchWrite maxAttempts c (set (.report r) report)

def LeasesNext (c : Committed Row World) (writes : List Write) (leased : LeasedEvent) : Prop :=
  ∃ event : OutboxEvent, c.rows.row (.outboxEvent leased.id) = some event ∧ leased.attempts = event.attempts + 1 ∧
    (∃ change ∈ writes, change.key = .outboxEvent leased.id) ∧
    ∀ event' : OutboxEvent, set (.outboxEvent leased.id) event' ∈ writes → event'.attempts = leased.attempts

theorem Advance.refl {event : OutboxEvent} (h : Dispatching maxAttempts c)
    (hRow : c.rows.row (.outboxEvent e) = some event) : Advance maxAttempts c e event event :=
  ⟨rfl, rfl, Nat.le_refl _, h.bound hRow, id, h.dispatched hRow, fun hStatus => h.closed hRow (.inl hStatus)⟩

theorem Advance.onward {event event' : OutboxEvent} (h : Advance maxAttempts c e event event')
    (hOnward : Onward maxAttempts i c c') : Advance maxAttempts c' e event event' where
  aggregate := h.aggregate
  payload := h.payload
  attempts := h.attempts
  bound := h.bound
  kept := h.kept
  dispatched hSet := (h.dispatched hSet).imp_right hOnward.succeeded
  closed hStatus := hOnward.closed (h.closed hStatus)

theorem stored_of_view {writes : List Write} {event' : OutboxEvent} (h : Dispatching maxAttempts c)
    (hWrites : ∀ change ∈ writes, DispatchWrite maxAttempts c change)
    (hView : (c.rows.apply writes).row (.outboxEvent e) = some event') :
    ∃ event : OutboxEvent, c.rows.row (.outboxEvent e) = some event ∧ Advance maxAttempts c e event event' ∧
      (event' = event ∨ set (.outboxEvent e) event' ∈ writes) := by
  rcases c.rows.apply_cases writes (.outboxEvent e) with hSame | ⟨v, hMem, hSeen⟩
  · have hRow := hSame.symm.trans hView
    exact ⟨event', hRow, .refl h hRow, .inl rfl⟩
  · cases hSeen.symm.trans hView
    generalize hChange : (⟨.outboxEvent e, some event'⟩ : Write) = change at hMem
    cases hWrites change hMem with
    | event hRow hAdvance =>
      cases hChange
      exact ⟨_, hRow, hAdvance, .inr hMem⟩
    | report => cases hChange

theorem view_of_stored {writes : List Write} {event : OutboxEvent} (h : Dispatching maxAttempts c)
    (hWrites : ∀ change ∈ writes, DispatchWrite maxAttempts c change)
    (hRow : c.rows.row (.outboxEvent e) = some event) :
    ∃ event' : OutboxEvent, (c.rows.apply writes).row (.outboxEvent e) = some event' ∧
      Advance maxAttempts c e event event' := by
  cases hView : (c.rows.apply writes).row (.outboxEvent e) with
  | some event' =>
    obtain ⟨stored, hStored, hAdvance, _⟩ := stored_of_view h hWrites hView
    cases hRow.symm.trans hStored
    exact ⟨event', rfl, hAdvance⟩
  | none =>
    rcases c.rows.apply_cases writes (.outboxEvent e) with hSame | ⟨v, hMem, hSeen⟩
    · cases (hSame.trans hRow).symm.trans hView
    · cases hSeen.symm.trans hView
      generalize hChange : (⟨.outboxEvent e, none⟩ : Write) = change at hMem
      cases hWrites change hMem <;> cases hChange

theorem givenUp_of_view {writes : List Write} {event : OutboxEvent} (h : Dispatching maxAttempts c)
    (hWrites : ∀ change ∈ writes, DispatchWrite maxAttempts c change)
    (hRow : c.rows.row (.outboxEvent e) = some event) (hGivenUp : IsGivenUp (c.rows.apply writes) event.aggregateId) :
    Closed maxAttempts c e := by
  obtain ⟨report, hReport, hCode⟩ := hGivenUp
  rcases c.rows.apply_cases writes (.report event.aggregateId) with hSame | ⟨v, hMem, _⟩
  · exact h.closed hRow (.inr ⟨report, hSame.symm.trans hReport, hCode⟩)
  · generalize hChange : (⟨.report event.aggregateId, v⟩ : Write) = change at hMem
    cases hWrites change hMem with
    | event => cases hChange
    | report _ hClosed =>
      cases hChange
      exact hClosed e ⟨event, hRow, rfl⟩

theorem fresh_of_leasesNext {writes : List Write} {leased : LeasedEvent} (h : Dispatching maxAttempts c)
    (hLeased : LeasesNext c writes leased) : (leased.id, leased.attempts) ∉ tickets c.world := by
  intro hMem
  obtain ⟨event, hRow, hNext, _⟩ := hLeased
  obtain ⟨_, stored, hStored, hAttempts⟩ := h.numbered hMem
  cases hRow.symm.trans hStored
  omega

theorem view_of_leasesNext {writes : List Write} {leased : LeasedEvent} (h : Dispatching maxAttempts c)
    (hWrites : ∀ change ∈ writes, DispatchWrite maxAttempts c change) (hLeased : LeasesNext c writes leased) :
    ∃ event event' : OutboxEvent, c.rows.row (.outboxEvent leased.id) = some event ∧
      event.attempts + 1 = leased.attempts ∧ leased.attempts ≤ maxAttempts ∧
      (c.rows.apply writes).row (.outboxEvent leased.id) = some event' ∧ event'.attempts = leased.attempts := by
  obtain ⟨event, hRow, hNext, hWritten, hVersions⟩ := hLeased
  obtain ⟨v, hMem, hSeen⟩ := c.rows.apply_mem_of_written hWritten
  obtain ⟨event', hView, hAdvance⟩ := view_of_stored h hWrites hRow
  cases hSeen.symm.trans hView
  have hAttempts := hVersions event' hMem
  exact ⟨event, event', hRow, hNext.symm, hAttempts ▸ hAdvance.bound, hView, hAttempts⟩

theorem nodup_lease {leased : List LeasedEvent} {world : World} (hNodup : (tickets world).Nodup)
    (hDistinct : (leased.map LeasedEvent.id).Nodup)
    (hFresh : ∀ event ∈ leased, (event.id, event.attempts) ∉ tickets world) :
    (tickets (record (.leased leased) i world)).Nodup := by
  have hPerm : (tickets (record (.leased leased) i world)).Perm
      (leased.map (fun event => (event.id, event.attempts)) ++ tickets world) := by
    simp only [tickets, record, List.map_append, List.map_map, List.append_assoc]
    exact List.perm_append_comm_assoc _ _ _
  refine hPerm.nodup_iff.mpr (List.nodup_append.mpr ⟨?_, hNodup, ?_⟩)
  · refine List.Nodup.of_map Prod.fst ?_
    rw [List.map_map]
    exact hDistinct
  · rintro ticket hMem ticket' hMem' rfl
    obtain ⟨event, hEvent, rfl⟩ := List.mem_map.mp hMem
    exact hFresh event hEvent hMem'

theorem dispatching_commit {writes : List Write} {leased : List LeasedEvent} (h : Dispatching maxAttempts c)
    (hWrites : ∀ change ∈ writes, DispatchWrite maxAttempts c change)
    (hLeased : ∀ event ∈ leased, LeasesNext c writes event) (hDistinct : (leased.map LeasedEvent.id).Nodup) :
    Dispatching maxAttempts ⟨c.rows.apply writes, record (.leased leased) i c.world, c.clock⟩ ∧
      ∀ j, Onward maxAttempts j c ⟨c.rows.apply writes, record (.leased leased) i c.world, c.clock⟩ := by
  have hKnown : ∀ {e r}, EventOf (c.rows.apply writes) e r → EventOf c.rows e r := by
    rintro e _ ⟨event', hView, rfl⟩
    obtain ⟨event, hRow, hAdvance, _⟩ := stored_of_view h hWrites hView
    exact ⟨event, hRow, hAdvance.aggregate.symm⟩
  have hClosed : ∀ {e}, Closed maxAttempts c e →
      Closed maxAttempts ⟨c.rows.apply writes, record (.leased leased) i c.world, c.clock⟩ e := by
    rintro e ⟨hQuiet, event, hRow, hAttempts⟩
    obtain ⟨event', hView, hAdvance⟩ := view_of_stored h hWrites hRow
    refine ⟨⟨fun lease hMem hSame => ?_, hQuiet.calls⟩, event', hView, Nat.le_trans hAttempts hAdvance.attempts⟩
    rcases List.mem_append.mp hMem with hMem | hMem
    · exact hQuiet.leases lease hMem hSame
    · obtain ⟨next, hNext, rfl⟩ := List.mem_map.mp hMem
      obtain ⟨stored, _, hStored, hSucc, hBound, _⟩ := view_of_leasesNext h hWrites (hLeased next hNext)
      cases hSame
      cases hRow.symm.trans hStored
      omega
  constructor
  · constructor
    · exact fun h₁ h₂ => h.unique (hKnown h₁) (hKnown h₂)
    · intro e event' hView
      obtain ⟨event, hRow, hAdvance, _⟩ := stored_of_view h hWrites hView
      rw [hAdvance.payload, hAdvance.aggregate]
      exact h.payload hRow
    · intro e event' hView
      obtain ⟨event, _, hAdvance, _⟩ := stored_of_view h hWrites hView
      exact hAdvance.bound
    · intro e event' hView hSet
      obtain ⟨event, _, hAdvance, _⟩ := stored_of_view h hWrites hView
      exact hAdvance.dispatched hSet
    · intro e event' hView hEnded
      obtain ⟨event, hRow, hAdvance, _⟩ := stored_of_view h hWrites hView
      refine hClosed (hEnded.elim hAdvance.closed fun hGivenUp => ?_)
      exact givenUp_of_view h hWrites hRow (hAdvance.aggregate ▸ hGivenUp)
    · intro e n hMem
      simp only [tickets, record, List.map_append, List.mem_append] at hMem
      have hOld : (e, n) ∈ tickets c.world → 0 < n ∧ ∃ event : OutboxEvent,
          (c.rows.apply writes).row (.outboxEvent e) = some event ∧ n ≤ event.attempts := by
        intro hMem
        obtain ⟨hPos, event, hRow, hAttempts⟩ := h.numbered hMem
        obtain ⟨event', hView, hAdvance⟩ := view_of_stored h hWrites hRow
        exact ⟨hPos, event', hView, Nat.le_trans hAttempts hAdvance.attempts⟩
      rcases hMem with (hMem | hMem) | hMem
      · exact hOld (List.mem_append_left _ hMem)
      · rw [List.map_map] at hMem
        obtain ⟨next, hNext, hSame⟩ := List.mem_map.mp hMem
        cases hSame
        obtain ⟨_, event', _, hSucc, _, hView, hAttempts⟩ := view_of_leasesNext h hWrites (hLeased next hNext)
        exact ⟨by dsimp; omega, event', hView, Nat.le_of_eq hAttempts.symm⟩
      · exact hOld (List.mem_append_right _ hMem)
    · exact nodup_lease h.nodup hDistinct fun event hMem => fresh_of_leasesNext h (hLeased event hMem)
  · intro j
    refine ⟨fun hRow => ?_, hKnown, fun lease hMem _ => List.mem_append_left _ hMem, fun _ hMem _ => hMem, hClosed⟩
    obtain ⟨event', hView, hAdvance⟩ := view_of_stored h hWrites hRow
    exact ⟨event', hView, hAdvance.aggregate, hAdvance.attempts, hAdvance.kept⟩

theorem dispatching_commit_plain {writes : List Write} (h : Dispatching maxAttempts c)
    (hWrites : ∀ change ∈ writes, DispatchWrite maxAttempts c change) :
    Dispatching maxAttempts { c with rows := c.rows.apply writes } ∧
      ∀ j, Onward maxAttempts j c { c with rows := c.rows.apply writes } := by
  have hCommit := dispatching_commit (i := 0) h hWrites (show ∀ event ∈ [], LeasesNext c writes event from nofun) .nil
  simpa [record] using hCommit

end States

end GhostApi.Hosted
