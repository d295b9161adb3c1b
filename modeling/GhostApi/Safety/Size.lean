import GhostApi.Safety.Validity
import GhostApi.Storage.RecordSize

/-!
# Bytes of a stored safety state

A crude bound by the number of records, good enough to see that a small valid
state can be read back.
-/

namespace GhostApi.Safety

open Js Json Validation Storage

variable {depth : Nat}

theorem time_within {ms : Int} (h : Printable ms) : Within depth 194 (time ms) := timestamp_within h

theorem scope_within (scope : SafetyScope) (hDepth : depth ≤ 4) : Within depth 2000 scope.toJson := by
  cases scope with
  | global =>
    refine (record_within (.cons rfl (constant_within rfl) .nil)).mono ?_
    have hMargin := margin_le hDepth
    omega
  | keyed kind id =>
    have hKind : plainName kind.text = true := by cases kind <;> rfl
    refine (record_within (.cons rfl (constant_within hKind)
      (.cons rfl (id_within id) .nil))).mono ?_
    have hMargin := margin_le hDepth
    omega

theorem costs_within (costs : SafetyCosts) (hDepth : depth ≤ 4) : Within depth 3000 costs.toJson := by
  refine (record_within (.cons rfl (number_within costs.monetaryAmountMinor.property)
    (.cons rfl (number_within costs.requests.property)
    (.cons rfl (number_within costs.messages.property)
    (.cons rfl (number_within costs.mutations.property)
    (.cons rfl (number_within costs.deletes.property)
    (.cons rfl (number_within costs.tokenCost.property) .nil))))))).mono ?_
  have hMargin := margin_le hDepth
  omega

theorem action_within (action : SafetyAction) (hDepth : depth ≤ 3) : Within depth 16000 action.toJson := by
  have hRisk : plainName action.riskClass.text = true := by cases action.riskClass <;> rfl
  refine (record_within (.cons rfl (id_within _) (.cons rfl (id_within _)
    (.cons rfl (id_within _) (.cons rfl (id_within _)
    (.cons rfl (id_within _) (.cons rfl (id_within _)
    (.cons rfl (id_within _) (.cons rfl (constant_within hRisk)
    (.cons rfl (id_within _) (.cons rfl (hash_within _)
    (.cons rfl (costs_within _ (by omega)) .nil)))))))))))).mono ?_
  have hMargin := margin_le (hDepth.trans (by decide))
  omega

theorem limit_members (key : String) (hKey : plainName key = true) (limit : Option Amount) (hDepth : depth ≤ 4) :
    ∃ total ≤ 350, Members depth total (Json.optional key (limit.map fun n => .number n.val)) := by
  cases limit with
  | none => exact ⟨0, by decide, .nil⟩
  | some n =>
    have hMargin := margin_le hDepth
    exact ⟨_, by omega, .cons hKey (number_within n.property) .nil⟩

theorem limits_within (limits : SafetyBudgetLimits) (hDepth : depth ≤ 4) : Within depth 3000 limits.toJson := by
  obtain ⟨t1, h1, m1⟩ := limit_members "monetaryAmountMinor" rfl limits.monetaryAmountMinor hDepth
  obtain ⟨t2, h2, m2⟩ := limit_members "requests" rfl limits.requests hDepth
  obtain ⟨t3, h3, m3⟩ := limit_members "messages" rfl limits.messages hDepth
  obtain ⟨t4, h4, m4⟩ := limit_members "mutations" rfl limits.mutations hDepth
  obtain ⟨t5, h5, m5⟩ := limit_members "deletes" rfl limits.deletes hDepth
  obtain ⟨t6, h6, m6⟩ := limit_members "tokenCost" rfl limits.tokenCost hDepth
  obtain ⟨t7, h7, m7⟩ := limit_members "concurrency" rfl limits.concurrency hDepth
  obtain ⟨t8, h8, m8⟩ := limit_members "velocity" rfl limits.velocity hDepth
  have hCosts := m1.append (m2.append (m3.append (m4.append (m5.append (m6.append .nil)))))
  refine (record_within ((hCosts.append m7).append m8)).mono ?_
  omega

theorem budget_within (budget : SafetyBudget) : Within 2 8000 budget.toJson := by
  have hMargin : margin 2 ≤ 286 := margin_le (by decide)
  have hSafe : MAX_MS ≤ MAX_SAFE_INTEGER := by decide
  refine (record_within (.cons rfl (id_within _)
    (.cons rfl (scope_within _ (by decide))
    (.cons rfl (number_within (budget.windowMs.property.2.trans hSafe))
    (.cons rfl (number_within (budget.velocityWindowMs.property.2.trans hSafe))
    (.cons rfl (limits_within _ (by decide)) .nil)))))).mono ?_
  omega

theorem circuitState_members {state : CircuitState} (h : state.Printable) :
    ∃ total ≤ 3000, Members 2 total state.members := by
  have hMargin : margin 2 ≤ 286 := margin_le (by decide)
  cases state with
  | closed => exact ⟨_, by omega, .cons rfl (constant_within rfl) .nil⟩
  | opened openedAt reason =>
    exact ⟨_, by omega, .cons rfl (constant_within rfl)
      (.cons rfl (timestamp_within h) (.cons rfl (text_within reason) .nil))⟩

theorem circuit_within {circuit : SafetyCircuit} (h : circuit.state.Printable) : Within 2 9000 circuit.toJson := by
  have hMargin : margin 2 ≤ 286 := margin_le (by decide)
  have hMs : MAX_MS ≤ MAX_SAFE_INTEGER := by decide
  have hLedger : MAX_LEDGER ≤ MAX_SAFE_INTEGER := by decide
  have hLatency : MAX_LATENCY_MS ≤ MAX_SAFE_INTEGER := by decide
  have hBps : 10000 ≤ MAX_SAFE_INTEGER := by decide
  obtain ⟨total, hTotal, hState⟩ := circuitState_members h
  refine (record_within (Members.append (.cons rfl (id_within _)
    (.cons rfl (scope_within _ (by decide))
    (.cons rfl (number_within (circuit.windowMs.property.2.trans hMs))
    (.cons rfl (number_within (circuit.minimumSamples.property.2.trans hLedger))
    (.cons rfl (number_within (circuit.maxFailureRateBps.property.trans hBps))
    (.cons rfl (number_within (circuit.maxPolicyViolations.property.trans hLedger))
    (.cons rfl (number_within (circuit.maxLatencyMs.property.trans hLatency))
    (.cons rfl (number_within (circuit.maxReconciliationMismatches.property.trans hLedger))
      .nil)))))))) hState)).mono ?_
  omega

theorem switch_within {control : SafetySwitch} (h : Printable control.changedAt) : Within 2 9000 control.toJson := by
  have hMargin : margin 2 ≤ 286 := margin_le (by decide)
  refine (record_within (.cons rfl (scope_within _ (by decide))
    (.cons rfl (bool_within _) (.cons rfl (time_within h)
    (.cons rfl (text_within _) (.cons rfl (id_within _) .nil)))))).mono ?_
  omega

theorem outcome_within (outcome : SafetyOutcome) : Within 3 4000 outcome.toJson := by
  have hMargin : margin 3 ≤ 286 := margin_le (by decide)
  have hLatency : MAX_LATENCY_MS ≤ MAX_SAFE_INTEGER := by decide
  have hReason : ∃ total ≤ 2000, Members 3 total
      (Json.optional "reason" (outcome.reason.map fun reason => .string reason.val)) := by
    cases outcome.reason with
    | none => exact ⟨0, by decide, .nil⟩
    | some reason => exact ⟨_, by omega, .cons rfl (text_within reason) .nil⟩
  obtain ⟨total, hTotal, hMembers⟩ := hReason
  refine (record_within (Members.append (.cons rfl (bool_within _)
    (.cons rfl (bool_within _) (.cons rfl (bool_within _)
    (.cons rfl (number_within (outcome.latencyMs.property.trans hLatency)) .nil)))) hMembers)).mono ?_
  omega

theorem ledger_within {entry : LedgerEntry} (hStatus : entry.status.Printable) (hKey : entry.HasKey)
    (hTime : Printable entry.admittedAt) : Within 2 26000 entry.toJson := by
  have hMargin : margin 2 ≤ 286 := margin_le (by decide)
  have hMembers : ∃ total ≤ 6000, Members 2 total (entry.status.members entry.admittedAt) := by
    cases hCase : entry.status with
    | reserved =>
      exact ⟨_, by omega, .cons rfl (constant_within rfl)
        (.cons rfl (time_within hTime) .nil)⟩
    | completed completedAt outcome =>
      rw [hCase] at hStatus
      exact ⟨_, by omega, .cons rfl (constant_within rfl)
        (.cons rfl (time_within hTime) (.cons rfl (time_within hStatus)
          (.cons rfl (outcome_within outcome) .nil)))⟩
  obtain ⟨total, hTotal, hMembers⟩ := hMembers
  refine (record_within (Members.append (.cons rfl (accepted_within hKey.1)
    (.cons rfl (action_within _ (by decide)) .nil)) hMembers)).mono ?_
  omega

theorem queue_members {item : SafetyQueueItem} (hId : isIdentifier item.id = true) (hTime : Printable item.queuedAt) :
    ∃ total ≤ 19000, Members 2 total item.members := by
  have hMargin : margin 2 ≤ 286 := margin_le (by decide)
  exact ⟨_, by omega, .cons rfl (identifier_within hId)
    (.cons rfl (action_within _ (by decide)) (.cons rfl (time_within hTime) .nil))⟩

theorem queue_within {item : SafetyQueueItem} (hId : isIdentifier item.id = true) (hTime : Printable item.queuedAt) :
    Within 2 26000 (.object item.members) := by
  obtain ⟨total, hTotal, hMembers⟩ := queue_members hId hTime
  exact (record_within hMembers).mono (by omega)

theorem deadLetter_within {item : SafetyDeadLetter} (hId : isIdentifier item.id = true)
    (hTime : Printable item.queuedAt) (hDead : Printable item.deadLetteredAt) : Within 2 26000 item.toJson := by
  have hMargin : margin 2 ≤ 286 := margin_le (by decide)
  obtain ⟨total, hTotal, hMembers⟩ := queue_members hId hTime
  refine (record_within (hMembers.append (.cons rfl (text_within _)
    (.cons rfl (time_within hDead) .nil)))).mono ?_
  omega

theorem audit_within {record : SafetyAuditRecord} (h : record.Sealed) : Within 2 11000 record.toJson := by
  have hMargin : margin 2 ≤ 286 := margin_le (by decide)
  have hSequence : record.sequence ≤ MAX_SAFE_INTEGER := h.1.2.trans (by decide)
  have hActor : ∃ total ≤ 1400, Members 2 total
      (Json.optional "actorPrincipalId" (record.actorPrincipalId.map fun id => .string id.val)) := by
    cases record.actorPrincipalId with
    | none => exact ⟨0, by decide, .nil⟩
    | some id => exact ⟨_, by omega, .cons rfl (id_within id) .nil⟩
  obtain ⟨total, hTotal, hMembers⟩ := hActor
  refine (record_within (Members.append (Members.append (Members.append
    (.cons rfl (number_within hSequence) (.cons rfl (text_within _)
      (.cons rfl (text_within _) (.cons rfl (text_within _) .nil)))) hMembers)
    (.cons rfl (time_within h.2.1) (.cons rfl (hash_within _) .nil)))
    (.cons rfl (hash_within _) .nil))).mono ?_
  omega

def SafetyControllerState.records (state : SafetyControllerState) : Nat :=
  state.switches.length + state.budgets.length + state.circuits.length + state.ledger.length + state.queue.length +
    state.deadLetters.length

theorem records_within {items : List Json} {bound : Nat} (h : ∀ item ∈ items, Within 2 bound item) :
    Within 1 (12 + items.length * (18 + bound)) (.array items) := (array_within h).mono (Nat.le_of_eq rfl)

theorem bytes_le {state : SafetyControllerState} (h : Valid state) :
    state.bytes ≤ 5000 + 27000 * state.records + 12000 * state.audit.length := by
  have hMargin : margin 0 ≤ 286 := margin_le (by decide)
  have hSwitches : Within 1 (12 + _ * (18 + 9000)) (.array (state.switches.map SafetySwitch.toJson)) :=
    records_within (List.forall_mem_map.mpr fun control hc => switch_within (h.switchesTime control hc))
  have hBudgets : Within 1 (12 + _ * (18 + 8000)) (.array (state.budgets.map SafetyBudget.toJson)) :=
    records_within (List.forall_mem_map.mpr fun budget _ => budget_within budget)
  have hCircuits : Within 1 (12 + _ * (18 + 9000)) (.array (state.circuits.map SafetyCircuit.toJson)) :=
    records_within (List.forall_mem_map.mpr fun circuit hc => circuit_within (h.circuitsTime circuit hc))
  have hLedger : Within 1 (12 + _ * (18 + 26000)) (.array (state.ledger.map LedgerEntry.toJson)) :=
    records_within (List.forall_mem_map.mpr fun entry he =>
      ledger_within (h.ledgerEntries entry he).1 (h.ledgerEntries entry he).2.1 (h.ledgerEntries entry he).2.2)
  have hQueue : Within 1 (12 + _ * (18 + 26000)) (.array (state.queue.map fun item => .object item.members)) :=
    records_within (List.forall_mem_map.mpr fun item hi => queue_within (h.queueItems item hi).1 (h.queueItems item hi).2)
  have hDead : Within 1 (12 + _ * (18 + 26000)) (.array (state.deadLetters.map SafetyDeadLetter.toJson)) :=
    records_within (List.forall_mem_map.mpr fun item hi =>
      deadLetter_within (h.deadLetters item hi).1.1 (h.deadLetters item hi).1.2 (h.deadLetters item hi).2)
  have hAudit : Within 1 (12 + _ * (18 + 11000)) (.array (state.audit.map SafetyAuditRecord.toJson)) :=
    records_within (List.forall_mem_map.mpr fun record hr => audit_within (h.auditRecords record hr))
  have hState : Within 0 _ state.toJson := record_within (.cons rfl (number_within (n := 1) (by decide))
    (.cons rfl hSwitches (.cons rfl hBudgets (.cons rfl hCircuits
    (.cons rfl hLedger (.cons rfl hQueue (.cons rfl hDead
    (.cons rfl (hash_within state.auditAnchor) (.cons rfl hAudit .nil)))))))))
  have hLine : "\n".utf8ByteSize = 1 := by decide
  rw [SafetyControllerState.bytes, StoreFormat.bytes, fileText, String.utf8ByteSize_append, hLine, SafetyControllerState.records]
  simp only [List.length_map] at hState
  exact Nat.le_trans (Nat.add_le_add_right hState 1) (by omega)

theorem read_of_small {state : SafetyControllerState} (h : Valid state) (hRecords : state.records ≤ 20)
    (hAudit : state.audit.length ≤ 40) : read (some state) = .ok state := by
  have hBytes := bytes_le h
  have hMax : MAX_STORE_BYTES = 1048576 := rfl
  exact format_accepts.read_of_size h (show state.bytes ≤ MAX_STORE_BYTES by omega)

end GhostApi.Safety
