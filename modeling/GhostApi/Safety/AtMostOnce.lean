import GhostApi.Safety.Progress
import Mathlib.Data.List.Nodup
import Mathlib.Data.List.Perm.Subperm

/-!
# Side effects per idempotency key

Every original lease of a key has a ledger entry that was reserved for it.
Such an entry is still there or was dropped as an expired reservation, and
there is at most one entry for a key, so a key has at most one more original
lease than it has dropped reservations.
-/

namespace GhostApi.Safety

open Js Validation Effect Effect.Mutation Table

def startsFor (s : System) (key : Identifier) : Nat := s.started.countP (·.action.idempotencyKey = key)

def reclaimsFor (s : System) (key : Identifier) : Nat :=
  s.reclaimed.countP (·.entry.action.idempotencyKey = key)

def entriesFor (ledger : List LedgerEntry) (key : Identifier) : Nat :=
  ledger.countP (·.action.idempotencyKey = key)

def originalsFor (s : System) (key : Identifier) : Nat :=
  s.leases.countP fun admission => !admission.lease.replay && decide (admission.lease.action.idempotencyKey = key)

/-- No commit on a lease whose callback was started before. -/
def CommitsOnce (s : System) (event : Event) : Prop :=
  ∀ index, event.call = .onLease index .commitStart → ∀ start ∈ s.started, start.lease ≠ index

structure Counted (options : Options) (s : System) : Prop where
  valid : ∀ state, s.store = some state → Valid state
  starts : ∀ start ∈ s.started, ∃ admission, s.leases[start.lease]? = some admission ∧
    admission.lease = ⟨start.action, false⟩
  distinct : (s.started.map Start.lease).Nodup
  originals : ∀ key, originalsFor s key ≤ reclaimsFor s key + entriesFor s.state.ledger key
  reclaims : ∀ reclaim ∈ s.reclaimed, reclaim.entry.status = .reserved ∧
    options.leaseTtlMs < reclaim.reclaimedAt - reclaim.entry.admittedAt

/-! ## Counting -/

theorem length_le_countP_of_positions {α : Type} {p : α → Bool} {items : List α} {positions : List Nat}
    (hNodup : positions.Nodup) (hAll : ∀ i ∈ positions, ∃ a, items[i]? = some a ∧ p a = true) :
    positions.length ≤ items.countP p := by
  have hSubset : positions ⊆ (items.zipIdx.filter fun x => p x.1).map Prod.snd := by
    intro i hi
    obtain ⟨a, hItem, hp⟩ := hAll i hi
    refine List.mem_map.mpr ⟨(a, i), List.mem_filter.mpr ⟨?_, hp⟩, rfl⟩
    exact List.mem_zipIdx_iff_getElem?.mpr hItem
  calc positions.length ≤ ((items.zipIdx.filter fun x => p x.1).map Prod.snd).length :=
        (hNodup.subperm hSubset).length_le
    _ = items.zipIdx.countP (fun x => p x.1) := by rw [List.length_map, List.countP_eq_length_filter]
    _ = (items.zipIdx.map Prod.fst).countP p := by rw [List.countP_map]; rfl
    _ = items.countP p := by rw [List.zipIdx_map_fst]

theorem startsFor_le_originalsFor {options : Options} {s : System} (h : Counted options s) (key : Identifier) :
    startsFor s key ≤ originalsFor s key := by
  rw [startsFor, List.countP_eq_length_filter, ← List.length_map Start.lease]
  refine length_le_countP_of_positions (h.distinct.sublist (List.filter_sublist.map _)) ?_
  intro i hi
  obtain ⟨start, hStart, rfl⟩ := List.mem_map.mp hi
  obtain ⟨hMem, hKey⟩ := List.mem_filter.mp hStart
  obtain ⟨admission, hFound, hLease⟩ := h.starts start hMem
  refine ⟨admission, hFound, ?_⟩
  rw [hLease]
  simpa using hKey

theorem entriesFor_le_one {state : SafetyControllerState} (h : Valid state) (key : Identifier) :
    entriesFor state.ledger key ≤ 1 := by
  have hCount := List.nodup_iff_count_le_one.mp h.idempotencyKeys key.val
  rw [List.count, List.countP_map] at hCount
  refine le_trans (List.countP_mono_left ?_) hCount
  intro entry _ hKey
  simpa [Subtype.ext_iff] using hKey

/-! ## Dropped reservations -/

theorem survivesPruning_eq {leaseTtlMs now : Int} {entry : LedgerEntry} :
    survivesPruning leaseTtlMs now entry = !leaseExpired leaseTtlMs entry now := by
  rw [survivesPruning, leaseExpired]
  by_cases hStatus : entry.status = .reserved
  · simp only [hStatus, ne_eq, not_true_eq_false, decide_false, Bool.false_or, decide_true, Bool.true_and,
      ← decide_not, decide_eq_decide]
    omega
  · simp [hStatus]

theorem entriesFor_pruned (leaseTtlMs now : Int) (ledger : List LedgerEntry) (key : Identifier) :
    entriesFor ledger key = entriesFor (pruned leaseTtlMs now ledger) key +
      (ledger.filter (leaseExpired leaseTtlMs · now)).countP (·.action.idempotencyKey = key) := by
  rw [entriesFor, entriesFor, pruned]
  induction ledger with
  | nil => rfl
  | cons entry ledger ih =>
    by_cases hExpired : leaseExpired leaseTtlMs entry now = true
    · simp [survivesPruning_eq, hExpired, List.countP_cons] at ih ⊢
      omega
    · simp [survivesPruning_eq, hExpired, List.countP_cons] at ih ⊢
      omega

theorem map_upsert_status {β : Type} {ledger : List LedgerEntry} {same : LedgerEntry → Bool} {entry : LedgerEntry}
    {f : LedgerEntry → β} (hf : ∀ e status, f { e with status := status } = f e) (status : LedgerStatus)
    (hFind : ledger.find? same = some entry) :
    (upsert same { entry with status := status } ledger).map f = ledger.map f :=
  map_upsert f hFind (hf entry status)

theorem entriesFor_eq_count (ledger : List LedgerEntry) (key : Identifier) :
    entriesFor ledger key = (ledger.map fun entry => entry.action.idempotencyKey).countP (· = key) := by
  rw [List.countP_map]
  rfl

theorem entriesFor_upsert {ledger : List LedgerEntry} {same : LedgerEntry → Bool} {entry : LedgerEntry}
    (status : LedgerStatus) (hFind : ledger.find? same = some entry) (key : Identifier) :
    entriesFor (upsert same { entry with status := status } ledger) key = entriesFor ledger key := by
  rw [entriesFor_eq_count, entriesFor_eq_count, map_upsert_status (fun _ _ => rfl) status hFind]

/-! ## Steps and runs -/

theorem Counted.valid_state {options : Options} {s : System} (h : Counted options s) :
    Valid s.state ∨ s.store = none := by
  cases hStore : s.store with
  | none => exact .inr rfl
  | some state =>
    left
    rw [System.state, hStore]
    exact h.valid state hStore

/-- One for an answer that hands out an original lease of the key. -/
def admittedFor (key : Identifier) : Answer → Nat
  | .admitted admission => if !admission.lease.replay ∧ admission.lease.action.idempotencyKey = key then 1 else 0
  | _ => 0

theorem dropped_count (s : System) (leaseTtlMs now : Int) (lease : SafetyLease) (key : Identifier) :
    (s.dropped leaseTtlMs (.admitted ⟨lease, now⟩)).countP (·.entry.action.idempotencyKey = key) =
      (s.state.ledger.filter (leaseExpired leaseTtlMs · now)).countP (·.action.idempotencyKey = key) := by
  rw [System.dropped, List.countP_map]
  rfl

theorem Changed.balance {options : Options} {s : System} {after : SafetyControllerState} {call : Call}
    {answer : Answer} (h : Changed options s.leases s.state after call answer) (key : Identifier) :
    entriesFor s.state.ledger key + admittedFor key answer ≤
      (s.dropped options.leaseTtlMs answer).countP (·.entry.action.idempotencyKey = key) +
        entriesFor after.ledger key := by
  cases h with
  | kept same =>
    rw [(Prod.mk.inj same).1]
    simp [admittedFor]
  | budget _ accounts_eq =>
    rw [(Prod.mk.inj accounts_eq).1]
    simp [admittedFor]
  | @replayed _ action now accounts_eq =>
    rw [(Prod.mk.inj accounts_eq).1, dropped_count, entriesFor_pruned options.leaseTtlMs now s.state.ledger]
    simp [admittedFor]
    omega
  | @reserved _ action now accounts_eq _ =>
    have hEntry : entriesFor (pruned options.leaseTtlMs now s.state.ledger ++ [reservation action now]) key =
        entriesFor (pruned options.leaseTtlMs now s.state.ledger) key +
          (if action.idempotencyKey = key then 1 else 0) := by
      simp [entriesFor, List.countP_append, List.countP_cons, reservation]
    rw [(Prod.mk.inj accounts_eq).1, dropped_count, entriesFor_pruned options.leaseTtlMs now s.state.ledger, hEntry]
    simp [admittedFor]
    omega
  | started _ _ same =>
    rw [(Prod.mk.inj same).1]
    simp [admittedFor]
  | completed found _ accounts_eq =>
    rw [(Prod.mk.inj accounts_eq).1, entriesFor_upsert _ found]
    simp [admittedFor]

theorem Counted.balance {options : Options} {s : System} {call : Call} {answer : Answer} {store : Store}
    (h : Counted options s) (hPerformed : Performed options s.leases s.store call answer store) (key : Identifier) :
    originalsFor s key + admittedFor key answer ≤
      reclaimsFor (s.stored options.leaseTtlMs answer store) key +
        entriesFor (s.stored options.leaseTtlMs answer store).state.ledger key := by
  have hOriginals := h.originals key
  have hReclaims : reclaimsFor (s.stored options.leaseTtlMs answer store) key = reclaimsFor s key +
      (s.dropped options.leaseTtlMs answer).countP (·.entry.action.idempotencyKey = key) :=
    List.countP_append
  rcases hPerformed with ⟨rfl, rfl⟩ | ⟨after, rfl, _, hChanged⟩
  · have hState : (s.stored options.leaseTtlMs .done s.store).state = s.state := rfl
    have hNone : admittedFor key .done = 0 := rfl
    rw [hReclaims, hState, hNone]
    omega
  · have hState : (s.stored options.leaseTtlMs answer (some after)).state = after := rfl
    have hBalance := hChanged.balance (s := s) key
    rw [hReclaims, hState]
    omega

theorem Counted.stored {options : Options} {s : System} {call : Call} {answer : Answer} {store : Store}
    (h : Counted options s) (hPerformed : Performed options s.leases s.store call answer store) :
    Counted options (s.stored options.leaseTtlMs answer store) where
  valid state hStore := by
    rcases hPerformed with ⟨rfl, _⟩ | ⟨after, rfl, hValid, _⟩
    · exact h.valid state hStore
    · cases hStore
      exact hValid
  starts := h.starts
  distinct := h.distinct
  originals key := le_trans (Nat.le_add_right _ _) (h.balance hPerformed key)
  reclaims reclaim hReclaim := by
    rcases List.mem_append.mp hReclaim with hOld | hNew
    · exact h.reclaims reclaim hOld
    · cases answer with
      | admitted admission =>
        obtain ⟨entry, hEntry, rfl⟩ := List.mem_map.mp hNew
        have hExpired := (List.mem_filter.mp hEntry).2
        simpa [leaseExpired] using hExpired
      | done => cases hNew
      | started start => cases hNew

theorem Counted.noted {options : Options} {s : System} {event : Event} {answer : Answer} {store : Store}
    (h : Counted options s) (hOnce : CommitsOnce s event)
    (hPerformed : Performed options s.leases s.store event.call answer store) :
    Counted options ((s.stored options.leaseTtlMs answer store).note answer) := by
  have hStored := h.stored hPerformed
  cases answer with
  | done => exact hStored
  | admitted admission =>
    refine { hStored with starts := ?_, originals := ?_ }
    · intro start hStart
      obtain ⟨found, hFound, hLease⟩ := h.starts start hStart
      refine ⟨found, ?_, hLease⟩
      obtain ⟨hBound, _⟩ := List.getElem?_eq_some_iff.mp hFound
      exact (List.getElem?_append_left hBound).trans hFound
    · intro key
      have hCount : originalsFor ((s.stored options.leaseTtlMs (.admitted admission) store).note
          (.admitted admission)) key = originalsFor s key + admittedFor key (.admitted admission) := by
        simp [originalsFor, System.note, System.stored, List.countP_append, List.countP_cons, admittedFor]
      rw [hCount]
      exact h.balance hPerformed key
  | started start =>
    rcases hPerformed with ⟨_, hDone⟩ | ⟨after, _, _, hChanged⟩
    · cases hDone
    · generalize hCall : event.call = call at hChanged
      cases hChanged with
      | @started index admission now found original same =>
        refine { hStored with starts := ?_, distinct := ?_ }
        · intro start hStart
          rcases List.mem_append.mp hStart with hOld | hNew
          · exact h.starts start hOld
          · cases List.mem_singleton.mp hNew
            exact ⟨admission, found, by rw [← original]⟩
        · have hMap : (((s.stored options.leaseTtlMs (.started ⟨index, admission.lease.action, now⟩) store).note
              (.started ⟨index, admission.lease.action, now⟩)).started.map Start.lease) =
              s.started.map Start.lease ++ [index] := List.map_append
          rw [hMap, List.nodup_append]
          refine ⟨h.distinct, List.nodup_singleton _, ?_⟩
          intro i hi j hj
          cases List.mem_singleton.mp hj
          obtain ⟨earlier, hEarlier, rfl⟩ := List.mem_map.mp hi
          exact hOnce _ hCall earlier hEarlier

theorem counted_step (options : Options) (s : System) (event : Event) (s' : System) (h : Counted options s)
    (hOnce : CommitsOnce s event) (hStep : (machine options).step s event = some s') : Counted options s' := by
  cases hStep
  rcases take_cases options s event with hSame | ⟨answer, store, hPerformed, hTake⟩
  · rwa [hSame]
  · rw [hTake]
    split
    · exact h.noted hOnce hPerformed
    · exact h.stored hPerformed

theorem counted_initial (options : Options) : Counted options (machine options).initial where
  valid := by rintro _ ⟨⟩
  starts := by rintro _ ⟨⟩
  distinct := List.nodup_nil
  originals key := Nat.zero_le _
  reclaims := by rintro _ ⟨⟩

/-- In a run that commits a lease at most once, the callbacks started for an
idempotency key outnumber the dropped reservations of the key by at most one,
and only reservations past their lease time are ever dropped. -/
theorem starts_le_reclaims_succ (options : Options) (events : List Event) (s : System)
    (run : (machine options).Run CommitsOnce events s) (key : Identifier) :
    startsFor s key ≤ reclaimsFor s key + 1 ∧ ∀ reclaim ∈ s.reclaimed, reclaim.entry.status = .reserved ∧
      options.leaseTtlMs < reclaim.reclaimedAt - reclaim.entry.admittedAt := by
  have hCounted := run.invariant (counted_initial options) (counted_step options)
  have hStarts := startsFor_le_originalsFor hCounted key
  have hOriginals := hCounted.originals key
  have hEntries : entriesFor s.state.ledger key ≤ 1 := by
    rcases hCounted.valid_state with hValid | hNone
    · exact entriesFor_le_one hValid key
    · rw [System.state, hNone]
      exact Nat.zero_le 1
  exact ⟨by omega, hCounted.reclaims⟩

def disabledOptions : Options where
  authenticate _ := .error (fail "Emergency authorization is not configured.")

theorem one_payment_starts_once : ∃ s, (machine disabledOptions).Run CommitsOnce
    [⟨.admitAction (payment "k1"), some 0, true⟩, ⟨.onLease 0 .commitStart, some 0, true⟩] s ∧
    startsFor s firstKey = 1 ∧ startsFor s firstKey ≤ reclaimsFor s firstKey + 1 := by
  have hAdmit : (machine disabledOptions).Run CommitsOnce [⟨.admitAction (payment "k1"), some 0, true⟩]
      (paidSystem emptyState []) :=
    .next .start (by rintro _ ⟨⟩) (congrArg some (idle_emptyState.take_admission rfl rfl))
  have hCommit : (machine disabledOptions).Run CommitsOnce
      [⟨.admitAction (payment "k1"), some 0, true⟩, ⟨.onLease 0 .commitStart, some 0, true⟩]
      (paidSystem emptyState [firstStart]) :=
    .next hAdmit (by rintro _ _ _ ⟨⟩) (congrArg some (idle_emptyState.take_commit rfl []))
  exact ⟨_, hCommit, by decide +kernel, (starts_le_reclaims_succ _ _ _ hCommit _).1⟩

/-- Committing one lease twice starts its callback twice, and so does admitting
the payment again after the time of its lease. -/
theorem payment_starts_twice :
    (∃ s, (machine disabledOptions).FreeRun [⟨.admitAction (payment "k1"), some 0, true⟩,
      ⟨.onLease 0 .commitStart, some 0, true⟩, ⟨.onLease 0 .commitStart, some 0, true⟩] s ∧
      ¬startsFor s firstKey ≤ 1) ∧
    ∃ s, (machine disabledOptions).FreeRun [⟨.admitAction (payment "k1"), some 0, true⟩,
      ⟨.onLease 0 .commitStart, some 0, true⟩, ⟨.admitAction (payment "k1"), some 60001, true⟩,
      ⟨.onLease 1 .commitStart, some 60001, true⟩] s ∧ ¬startsFor s firstKey ≤ 1 := by
  have hAdmit : (machine disabledOptions).FreeRun [⟨.admitAction (payment "k1"), some 0, true⟩] (paidSystem emptyState []) :=
    .next .start trivial (congrArg some (idle_emptyState.take_admission rfl rfl))
  have hCommit : (machine disabledOptions).FreeRun [⟨.admitAction (payment "k1"), some 0, true⟩,
      ⟨.onLease 0 .commitStart, some 0, true⟩] (paidSystem emptyState [firstStart]) :=
    .next hAdmit trivial (congrArg some (idle_emptyState.take_commit rfl []))
  constructor
  · have hAgain : (machine disabledOptions).FreeRun [⟨.admitAction (payment "k1"), some 0, true⟩,
        ⟨.onLease 0 .commitStart, some 0, true⟩, ⟨.onLease 0 .commitStart, some 0, true⟩]
        (paidSystem emptyState [firstStart, firstStart]) :=
      .next hCommit trivial (congrArg some (idle_emptyState.take_commit rfl [firstStart]))
    exact ⟨_, hAgain, by decide +kernel⟩
  · have hReadmit : (machine disabledOptions).FreeRun [⟨.admitAction (payment "k1"), some 0, true⟩,
        ⟨.onLease 0 .commitStart, some 0, true⟩, ⟨.admitAction (payment "k1"), some 60001, true⟩]
        (repaidSystem emptyState firstKey acceptsKey_first [firstStart]) :=
      .next hCommit trivial (congrArg some
        (idle_emptyState.take_readmission rfl validateAction_first acceptsKey_first trimKey_first [firstStart] rfl))
    have hRecommit : (machine disabledOptions).FreeRun [⟨.admitAction (payment "k1"), some 0, true⟩,
        ⟨.onLease 0 .commitStart, some 0, true⟩, ⟨.admitAction (payment "k1"), some 60001, true⟩,
        ⟨.onLease 1 .commitStart, some 60001, true⟩]
        (repaidSystem emptyState firstKey acceptsKey_first [firstStart, secondStart firstKey]) :=
      .next hReadmit trivial (congrArg some
        (idle_emptyState.take_recommit rfl acceptsKey_first trimKey_first [firstStart]))
    exact ⟨_, hRecommit, by decide +kernel⟩

end GhostApi.Safety
