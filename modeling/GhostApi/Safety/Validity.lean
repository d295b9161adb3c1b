import GhostApi.Safety.Controller

/-!
# What the state validator accepts

The checks of validateState as one predicate on states, and what the steps of
an operation leave alone.
-/

namespace GhostApi.Safety

open Js Validation Effect

def CircuitState.Printable : CircuitState → Prop
  | .closed => True
  | .opened openedAt _ => Date.isTimestamp openedAt = true

def LedgerStatus.Printable : LedgerStatus → Prop
  | .reserved => True
  | .completed completedAt _ => Validation.Printable completedAt

def LedgerEntry.HasKey (entry : LedgerEntry) : Prop :=
  acceptsText 300 entry.key = true ∧ trim entry.key = ledgerKey entry.action

def SafetyAuditRecord.Sealed (record : SafetyAuditRecord) : Prop :=
  (1 ≤ record.sequence ∧ record.sequence ≤ MAX_AUDIT) ∧ Printable record.timestamp ∧
    record.recordHash = record.toAuditBase.seal.recordHash

theorem validateCircuitState_eq_ok {state : CircuitState} :
    validateCircuitState state = .ok () ↔ state.Printable := by
  cases state with
  | closed => exact ⟨fun _ => trivial, fun _ => rfl⟩
  | opened openedAt reason => exact checkTimestamp_eq_ok

theorem validateStatus_eq_ok {status : LedgerStatus} : validateStatus status = .ok () ↔ status.Printable := by
  cases status with
  | reserved => exact ⟨fun _ => trivial, fun _ => rfl⟩
  | completed completedAt outcome => exact stamp_eq_ok

theorem validateKey_eq_ok {entry : LedgerEntry} : validateKey entry = .ok () ↔ entry.HasKey := by
  constructor
  · intro h
    obtain ⟨key, hText, h⟩ := bind_eq_ok h
    obtain ⟨hAccepts, hKey⟩ := text_ok hText
    exact ⟨hAccepts, hKey ▸ ite_ok_iff.mp h⟩
  · rintro ⟨hAccepts, hKey⟩
    rw [validateKey, text, dif_pos hAccepts]
    exact ite_ok_iff.mpr hKey

theorem validateLedger_eq_ok {entry : LedgerEntry} :
    validateLedger entry = .ok () ↔ entry.status.Printable ∧ entry.HasKey ∧ Printable entry.admittedAt := by
  rw [validateLedger, bind_unit_eq_ok, bind_unit_eq_ok, validateStatus_eq_ok, validateKey_eq_ok, stamp_eq_ok]

theorem validateQueueItem_eq_ok {item : SafetyQueueItem} :
    validateQueueItem item = .ok () ↔ isIdentifier item.id = true ∧ Printable item.queuedAt := by
  rw [validateQueueItem, bind_unit_eq_ok, checkIdentifier_eq_ok, stamp_eq_ok]

theorem validateDeadLetter_eq_ok {item : SafetyDeadLetter} : validateDeadLetter item = .ok () ↔
    (isIdentifier item.id = true ∧ Printable item.queuedAt) ∧ Printable item.deadLetteredAt := by
  rw [validateDeadLetter, bind_unit_eq_ok, validateQueueItem_eq_ok, stamp_eq_ok]

theorem validateAudit_eq_ok {record : SafetyAuditRecord} : validateAudit record = .ok () ↔ record.Sealed := by
  rw [validateAudit, SafetyAuditRecord.Sealed]
  by_cases hSequence : 1 ≤ record.sequence ∧ record.sequence ≤ MAX_AUDIT
  · rw [if_pos hSequence, bind_unit_eq_ok, stamp_eq_ok, and_iff_right hSequence]
    exact and_congr_right fun _ => ite_ok_iff
  · rw [if_neg hSequence]
    exact ⟨fun h => (nomatch h), fun h => absurd h.1 hSequence⟩

structure Valid (state : SafetyControllerState) : Prop where
  switchesLength : state.switches.length ≤ MAX_CONTROLS
  switchesTime : ∀ control ∈ state.switches, Printable control.changedAt
  switchesUnique : (state.switches.map fun control => scopeKey control.scope).Nodup
  budgetsLength : state.budgets.length ≤ MAX_CONTROLS
  budgetsUnique : (state.budgets.map fun budget => budget.id.val).Nodup
  circuitsLength : state.circuits.length ≤ MAX_CONTROLS
  circuitsTime : ∀ circuit ∈ state.circuits, circuit.state.Printable
  circuitsUnique : (state.circuits.map fun circuit => circuit.id.val).Nodup
  ledgerLength : state.ledger.length ≤ MAX_LEDGER
  ledgerEntries : ∀ entry ∈ state.ledger, entry.status.Printable ∧ entry.HasKey ∧ Printable entry.admittedAt
  ledgerKeys : (state.ledger.map LedgerEntry.key).Nodup
  idempotencyKeys : (state.ledger.map fun entry => entry.action.idempotencyKey.val).Nodup
  queueLength : state.queue.length ≤ MAX_QUEUE
  queueItems : ∀ item ∈ state.queue, isIdentifier item.id = true ∧ Printable item.queuedAt
  queueIds : (state.queue.map SafetyQueueItem.id).Nodup
  deadLettersLength : state.deadLetters.length ≤ MAX_DEAD_LETTERS
  deadLetters : ∀ item ∈ state.deadLetters,
    (isIdentifier item.id = true ∧ Printable item.queuedAt) ∧ Printable item.deadLetteredAt
  deadLetterIds : (state.deadLetters.map fun item => item.id).Nodup
  auditLength : state.audit.length ≤ MAX_AUDIT
  auditRecords : ∀ record ∈ state.audit, record.Sealed
  auditChain : auditChain.Linked state.auditAnchor 1 state.audit

theorem validateState_eq_ok {state state' : SafetyControllerState} :
    validateState state = .ok state' ↔ Valid state ∧ state = state' := by
  have hPure : ∀ x : SafetyControllerState, (pure x : Except JsError _) = .ok state' ↔ x = state' :=
    fun x => ⟨fun h => by cases h; rfl, fun h => by rw [h]; rfl⟩
  simp only [validateState, bind_unit_eq_ok, atMost_eq_ok, unique_eq_ok, forM_eq_ok, validateSwitch, stamp_eq_ok,
    validateCircuitState_eq_ok, validateLedger_eq_ok, validateQueueItem_eq_ok, validateDeadLetter_eq_ok,
    validateAudit_eq_ok, validateAuditChain, NumberedChain.verify_eq_ok, hPure]
  constructor
  · rintro ⟨h1, h2, h3, h4, h5, h6, h7, h8, h9, h10, h11, h12, h13, h14, h15, h16, h17, h18, h19, h20, h21, h⟩
    exact ⟨⟨h1, h2, h3, h4, h5, h6, h7, h8, h9, h10, h11, h12, h13, h14, h15, h16, h17, h18, h19, h20, h21⟩, h⟩
  · rintro ⟨⟨h1, h2, h3, h4, h5, h6, h7, h8, h9, h10, h11, h12, h13, h14, h15, h16, h17, h18, h19, h20, h21⟩, h⟩
    exact ⟨h1, h2, h3, h4, h5, h6, h7, h8, h9, h10, h11, h12, h13, h14, h15, h16, h17, h18, h19, h20, h21, h⟩

theorem format_accepts : format.Accepts Valid := fun _ _ => validateState_eq_ok

end GhostApi.Safety
