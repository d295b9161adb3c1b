import GhostApi.Safety.AtMostOnce

/-!
# Admitted actions stay charged

The entry that an admission reserved stays in the ledger, reserved or
completed, until an admit drops it as an expired reservation.
-/

namespace GhostApi.Safety

open Js Validation Effect Effect.Mutation Table

/-! ## Typed callers -/

def SafetyCosts.toValue (costs : SafetyCosts) : JsValue :=
  .object (CostCategory.all.map fun category => (category.text, .number (.integer (costs.get category))))

def SafetyAction.toValue (action : SafetyAction) : JsValue :=
  .object [("organizationId", .string action.organizationId.val), ("projectId", .string action.projectId.val),
    ("environment", .string action.environment.val), ("actorId", .string action.actorId.val),
    ("workloadId", .string action.workloadId.val), ("provider", .string action.provider.val),
    ("operation", .string action.operation.val), ("riskClass", .string action.riskClass.text),
    ("idempotencyKey", .string action.idempotencyKey.val), ("actionHash", .string action.actionHash.val),
    ("costs", action.costs.toValue)]

def SafetyOutcome.toValue (outcome : SafetyOutcome) : JsValue :=
  .object [("success", .bool outcome.success), ("policyViolation", .bool outcome.policyViolation),
    ("reconciliationMismatch", .bool outcome.reconciliationMismatch),
    ("latencyMs", .number (.integer outcome.latencyMs.val)),
    ("reason", match outcome.reason with
      | some reason => .string reason.val
      | none => .undefined)]

theorem nonNegative_val {max : Nat} (n : Bounded max) (label : String) :
    nonNegative fail (.number (.integer n.val)) label max = .ok n := by
  rw [nonNegative, dif_pos ⟨Int.natCast_nonneg _, by simpa using n.property⟩]
  rfl

theorem validateAction_toValue (action : SafetyAction) : validateAction action.toValue = .ok action := by
  have hRisk : enumerated fail RiskClass.all RiskClass.text (.string action.riskClass.text)
      "Safety action risk class is invalid." = .ok action.riskClass := by
    cases action.riskClass <;> rfl
  rw [validateAction, SafetyAction.toValue]
  simp [object, exactKeys, validateCosts, costKeys, SafetyCosts.toValue, CostCategory.all, CostCategory.text,
    SafetyCosts.get, Fields.get, List.lookup_cons, JsValue.isUndefined, hRisk, identifier_val, hash_val, nonNegative_val,
    pure, Except.pure, bind, Except.bind]

/-! ## The entry of an admission -/

/-- The ledger has the entry that was reserved under a key at a time. -/
def Listed (ledger : List LedgerEntry) (key : String) (admittedAt : Int) : Prop :=
  ∃ entry ∈ ledger, entry.key = key ∧ entry.admittedAt = admittedAt

/-- An admit dropped the entry as a reservation whose lease had run out. -/
def Reclaimed (leaseTtlMs : Int) (s : System) (key : String) (admittedAt : Int) : Prop :=
  ∃ reclaim ∈ s.reclaimed, reclaim.entry.key = key ∧ reclaim.entry.admittedAt = admittedAt ∧
    reclaim.entry.status = .reserved ∧ leaseTtlMs < reclaim.reclaimedAt - admittedAt

/-- A client holds an original lease of the action, and the entry that was reserved for it is still listed or was
dropped. -/
def Charged (leaseTtlMs : Int) (action : SafetyAction) (s : System) : Prop :=
  ∃ admission ∈ s.leases, admission.lease = ⟨action, false⟩ ∧
    (Listed s.state.ledger (ledgerKey action) admission.admittedAt ∨
      Reclaimed leaseTtlMs s (ledgerKey action) admission.admittedAt)

theorem listed_iff {ledger : List LedgerEntry} {key : String} {admittedAt : Int} :
    Listed ledger key admittedAt ↔ (key, admittedAt) ∈ ledger.map fun entry => (entry.key, entry.admittedAt) := by
  simp [Listed]

theorem Listed.append {ledger : List LedgerEntry} {key : String} {admittedAt : Int} (h : Listed ledger key admittedAt)
    (added : List LedgerEntry) : Listed (ledger ++ added) key admittedAt := by
  obtain ⟨entry, hEntry, hKey⟩ := h
  exact ⟨entry, List.mem_append_left _ hEntry, hKey⟩

theorem Listed.pruned {ledger : List LedgerEntry} {key : String} {admittedAt leaseTtlMs now : Int}
    (h : Listed ledger key admittedAt) : Listed (pruned leaseTtlMs now ledger) key admittedAt ∨
      ∃ entry ∈ ledger.filter (leaseExpired leaseTtlMs · now), entry.key = key ∧ entry.admittedAt = admittedAt := by
  obtain ⟨entry, hEntry, hKey⟩ := h
  cases hExpired : leaseExpired leaseTtlMs entry now with
  | true => exact .inr ⟨entry, List.mem_filter.mpr ⟨hEntry, hExpired⟩, hKey⟩
  | false =>
    left
    refine ⟨entry, List.mem_filter.mpr ⟨hEntry, ?_⟩, hKey⟩
    rw [survivesPruning_eq, hExpired]
    rfl

theorem Changed.listed {options : Options} {s : System} {after : SafetyControllerState} {call : Call} {answer : Answer}
    {key : String} {admittedAt : Int} (h : Changed options s.leases s.state after call answer)
    (hListed : Listed s.state.ledger key admittedAt) : Listed after.ledger key admittedAt ∨
      ∃ reclaim ∈ s.dropped options.leaseTtlMs answer, reclaim.entry.key = key ∧
        reclaim.entry.admittedAt = admittedAt ∧ reclaim.entry.status = .reserved ∧
        options.leaseTtlMs < reclaim.reclaimedAt - admittedAt := by
  have hDropped : ∀ lease now, (∃ entry ∈ s.state.ledger.filter (leaseExpired options.leaseTtlMs · now),
      entry.key = key ∧ entry.admittedAt = admittedAt) →
      ∃ reclaim ∈ s.dropped options.leaseTtlMs (.admitted ⟨lease, now⟩), reclaim.entry.key = key ∧
        reclaim.entry.admittedAt = admittedAt ∧ reclaim.entry.status = .reserved ∧
        options.leaseTtlMs < reclaim.reclaimedAt - admittedAt := by
    rintro lease now ⟨entry, hEntry, hKey, rfl⟩
    refine ⟨⟨entry, now⟩, List.mem_map.mpr ⟨entry, hEntry, rfl⟩, hKey, rfl, ?_⟩
    simpa [leaseExpired] using (List.mem_filter.mp hEntry).2
  cases h with
  | kept same =>
    rw [(Prod.mk.inj same).1]
    exact .inl hListed
  | budget _ accounts_eq =>
    rw [(Prod.mk.inj accounts_eq).1]
    exact .inl hListed
  | @replayed _ action now accounts_eq =>
    rw [(Prod.mk.inj accounts_eq).1]
    exact hListed.pruned.imp id (hDropped _ now)
  | @reserved _ action now accounts_eq _ =>
    rw [(Prod.mk.inj accounts_eq).1]
    exact hListed.pruned.imp (fun h => h.append _) (hDropped _ now)
  | started _ _ same =>
    rw [(Prod.mk.inj same).1]
    exact .inl hListed
  | @completed _ _ _ entry now outcome found _ accounts_eq =>
    rw [(Prod.mk.inj accounts_eq).1]
    left
    rw [listed_iff] at hListed ⊢
    rwa [map_upsert_status (fun _ _ => rfl) _ found]

theorem Charged.stored {options : Options} {action : SafetyAction} {s : System} {call : Call} {answer : Answer}
    {store : Store} (h : Charged options.leaseTtlMs action s)
    (hPerformed : Performed options s.leases s.store call answer store) :
    Charged options.leaseTtlMs action (s.stored options.leaseTtlMs answer store) := by
  obtain ⟨admission, hAdmission, hLease, hEntry⟩ := h
  refine ⟨admission, hAdmission, hLease, ?_⟩
  rcases hEntry with hListed | ⟨reclaim, hReclaim, hDropped⟩
  · rcases hPerformed with ⟨rfl, rfl⟩ | ⟨after, rfl, _, hChanged⟩
    · exact .inl hListed
    · rcases hChanged.listed hListed with hListed | ⟨reclaim, hReclaim, hDropped⟩
      · exact .inl hListed
      · exact .inr ⟨reclaim, List.mem_append_right _ hReclaim, hDropped⟩
  · exact .inr ⟨reclaim, List.mem_append_left _ hReclaim, hDropped⟩

theorem Charged.note {leaseTtlMs : Int} {action : SafetyAction} {s : System} (h : Charged leaseTtlMs action s)
    (answer : Answer) : Charged leaseTtlMs action (s.note answer) := by
  obtain ⟨admission, hAdmission, hEntry⟩ := h
  cases answer with
  | done => exact ⟨admission, hAdmission, hEntry⟩
  | admitted other => exact ⟨admission, List.mem_append_left _ hAdmission, hEntry⟩
  | started start => exact ⟨admission, hAdmission, hEntry⟩

theorem Charged.take {options : Options} {action : SafetyAction} {s : System}
    (h : Charged options.leaseTtlMs action s) (event : Event) :
    Charged options.leaseTtlMs action (s.take options event) := by
  rcases take_cases options s event with hSame | ⟨answer, store, hPerformed, hTake⟩
  · rwa [hSame]
  · rw [hTake]
    split
    · exact (h.stored hPerformed).note answer
    · exact h.stored hPerformed

theorem charged_of_admission {options : Options} {s : System} {action : SafetyAction} {clock : Option Int}
    {admission : Admission} {store : Store}
    (hPerform : perform options s.leases clock s.store (.admitAction action.toValue) = .ok (.admitted admission, store))
    (hOriginal : admission.lease.replay = false) :
    Charged options.leaseTtlMs action ((s.stored options.leaseTtlMs (.admitted admission) store).note
      (.admitted admission)) := by
  have hAction : admission.lease.action = action := by
    obtain ⟨found, hFound, h⟩ := bind_eq_ok hPerform
    rw [validateAction_toValue] at hFound
    cases hFound
    obtain ⟨_, _, _, hAnswer, _⟩ := written_ok h
    cases hAnswer
    rfl
  rcases perform_ok hPerform with ⟨_, hDone⟩ | ⟨after, rfl, _, hChanged⟩
  · cases hDone
  · refine ⟨admission, List.mem_append_right _ (List.mem_singleton_self _), ?_, .inl ?_⟩
    · rw [← hAction, ← hOriginal]
    · cases hChanged with
      | replayed => cases hOriginal
      | @reserved _ found now accounts_eq _ =>
        cases hAction
        have hLedger := (Prod.mk.inj accounts_eq).1
        change Listed after.ledger _ _
        rw [hLedger]
        exact ⟨reservation found now, List.mem_append_right _ (List.mem_singleton_self _), rfl, rfl⟩

end GhostApi.Safety
