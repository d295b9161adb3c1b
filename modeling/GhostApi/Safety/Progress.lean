import GhostApi.Safety.Size
import GhostApi.Safety.System
import Mathlib.Data.List.Nodup

/-!
# Operations that succeed

When the steps of an operation do not throw, and that the states they leave
pass the validator again.
-/

namespace GhostApi.Safety

open Js Validation Effect Effect.Mutation

/-! ## The audit chain -/

/-- The record that appendAudit adds for accepted texts. -/
def auditRecord (state : SafetyControllerState) (event : Text 80) (subject : Text 300) (reason : Text 200) (now : Int)
    (actorPrincipalId : Option Identifier) : SafetyAuditRecord :=
  AuditBase.seal {
    sequence := state.audit.length + 1
    event, subject, reason, actorPrincipalId
    timestamp := now
    previousHash := auditChain.latest state.auditAnchor state.audit }

def withAudit (state : SafetyControllerState) (record : SafetyAuditRecord) : SafetyControllerState :=
  { state with audit := state.audit ++ [record] }

theorem appendAudit_of_accepts {state : SafetyControllerState} {event subject reason : String} (now : Int)
    (actor : Option Identifier) (hRoom : state.audit.length < MAX_AUDIT) (hEvent : acceptsText 80 event = true)
    (hSubject : acceptsText 300 subject = true) (hReason : acceptsText 200 reason = true) :
    appendAudit event subject reason now actor state = (.ok (), withAudit state
      (auditRecord state ⟨trim event, acceptsText_trim hEvent⟩ ⟨trim subject, acceptsText_trim hSubject⟩
        ⟨trim reason, acceptsText_trim hReason⟩ now actor)) := by
  rw [appendAudit, get_bind, bind_of_ok (throwIf_of_not (by omega) _ _)]
  rw [text, dif_pos hEvent, lift_bind, text, dif_pos hSubject, lift_bind, text, dif_pos hReason, lift_bind]
  rfl

theorem Valid.withAudit {state : SafetyControllerState} (h : Valid state) {event : Text 80} {subject : Text 300}
    {reason : Text 200} {now : Int} {actor : Option Identifier} (hNow : Printable now)
    (hRoom : state.audit.length < MAX_AUDIT) :
    Valid (withAudit state (auditRecord state event subject reason now actor)) := by
  refine { h with auditLength := ?_, auditRecords := ?_, auditChain := ?_ }
  · rw [Safety.withAudit, List.length_append]
    exact hRoom
  · intro record hRecord
    rcases List.mem_append.mp hRecord with hOld | hNew
    · exact h.auditRecords record hOld
    · cases List.mem_singleton.mp hNew
      exact ⟨⟨Nat.le_add_left 1 _, hRoom⟩, hNow, rfl⟩
  · refine NumberedChain.linked_append.mpr ⟨h.auditChain, ?_, rfl⟩
    exact Nat.add_comm _ _

/-! ## Without switches and circuits -/

theorem assertActionAllowed_idle {state : SafetyControllerState} (hSwitches : state.switches = [])
    (hCircuits : state.circuits = []) (action : SafetyAction) (now : Int) :
    assertActionAllowed action now state = (.ok (), state) := by
  have hClosed : assertClosed action state = (.ok (), state) := by
    rw [assertClosed, get_bind, findOpenCircuit, hCircuits]
    rfl
  have hCircuitsRun : evaluateCircuits action now state = (.ok (), state) := by
    rw [evaluateCircuits, get_bind, hCircuits]
    rfl
  rw [assertActionAllowed, get_bind, hSwitches]
  change (assertClosed action >>= fun _ => evaluateCircuits action now >>= fun _ => assertClosed action) state = _
  rw [bind_of_ok hClosed, bind_of_ok hCircuitsRun, hClosed]

def reservedState (state : SafetyControllerState) (action : SafetyAction) (now : Int)
    (hKey : acceptsText 300 (ledgerKey action) = true) : SafetyControllerState :=
  let state := { state with ledger := state.ledger ++ [reservation action now] }
  withAudit state (auditRecord state ⟨"action.admitted", by decide +kernel⟩
    ⟨trim (ledgerKey action), acceptsText_trim hKey⟩ ⟨"budget reservation created", by decide +kernel⟩ now none)

theorem reserve_of_allowed (state : SafetyControllerState) {action : SafetyAction} {now : Int}
    (hAllowed : assertActionAllowed action now state = (.ok (), state))
    (hLedger : state.ledger.length < MAX_LEDGER) (hAudit : state.audit.length < MAX_AUDIT)
    (hBudgets : assertBudgets state action now = .ok ()) (hKey : acceptsText 300 (ledgerKey action) = true) :
    reserve action now state = (.ok false, reservedState state action now hKey) := by
  rw [reserve, bind_of_ok hAllowed, get_bind, bind_of_ok (throwIf_of_not (by omega) _ _), hBudgets, lift_bind,
    modify_bind,
    bind_of_ok (appendAudit_of_accepts _ _ (by exact hAudit) (by decide +kernel) hKey (by decide +kernel))]
  rfl

/-- The state of an admit after it dropped the expired reservations. -/
def prunedState (state : SafetyControllerState) (leaseTtlMs now : Int) : SafetyControllerState :=
  { state with ledger := pruned leaseTtlMs now state.ledger }

theorem admitOp_of_fresh (state : SafetyControllerState) {action : SafetyAction} {leaseTtlMs now : Int}
    (hFresh : ∀ entry ∈ pruned leaseTtlMs now state.ledger,
      entry.action.idempotencyKey ≠ action.idempotencyKey ∧ entry.key ≠ ledgerKey action) :
    admitOp leaseTtlMs action now state = reserve action now (prunedState state leaseTtlMs now) := by
  have hFind : (pruned leaseTtlMs now state.ledger).find? (·.action.idempotencyKey == action.idempotencyKey) = none :=
    List.find?_eq_none.mpr fun entry he => by simpa [Subtype.ext_iff] using (hFresh entry he).1
  have hAny : ¬(prunedState state leaseTtlMs now).ledger.any (·.key == ledgerKey action) = true := by
    rw [List.any_eq_true]
    rintro ⟨entry, he, hEq⟩
    exact (hFresh entry he).2 (by simpa using hEq)
  have hCollision : assertNoCollision action (prunedState state leaseTtlMs now) =
      (.ok (), prunedState state leaseTtlMs now) := by
    rw [assertNoCollision, get_bind, prunedState, hFind]
    exact throwIf_of_not (by simp) _ _
  rw [admitOp, pruneExpiredLeases, modify_bind]
  change (assertNoCollision action >>= _) (prunedState state leaseTtlMs now) = _
  rw [bind_of_ok hCollision, get_bind, if_neg hAny]

theorem admitOp_idle (state : SafetyControllerState) {action : SafetyAction} {leaseTtlMs now : Int}
    (hSwitches : state.switches = []) (hCircuits : state.circuits = [])
    (hFresh : ∀ entry ∈ pruned leaseTtlMs now state.ledger,
      entry.action.idempotencyKey ≠ action.idempotencyKey ∧ entry.key ≠ ledgerKey action)
    (hLedger : (pruned leaseTtlMs now state.ledger).length < MAX_LEDGER) (hAudit : state.audit.length < MAX_AUDIT)
    (hBudgets : assertBudgets (prunedState state leaseTtlMs now) action now = .ok ())
    (hKey : acceptsText 300 (ledgerKey action) = true) :
    admitOp leaseTtlMs action now state =
      (.ok false, reservedState (prunedState state leaseTtlMs now) action now hKey) := by
  rw [admitOp_of_fresh state hFresh]
  have hStillSwitches : (prunedState state leaseTtlMs now).switches = [] := hSwitches
  have hStillCircuits : (prunedState state leaseTtlMs now).circuits = [] := hCircuits
  exact reserve_of_allowed _ (assertActionAllowed_idle hStillSwitches hStillCircuits action now) hLedger hAudit hBudgets
    hKey

theorem assertReserved_of_find {state : SafetyControllerState} {leaseTtlMs now : Int} {key : String}
    {entry : LedgerEntry} (hFind : state.ledger.find? (·.key == key) = some entry)
    (hReserved : entry.status = .reserved) (hTime : now - entry.admittedAt ≤ leaseTtlMs) :
    assertReserved leaseTtlMs key now state = (.ok (), state) := by
  have hFound : findLedger key state = (.ok entry, state) := by
    rw [findLedger, get_bind, hFind]
    rfl
  have hLive : ¬leaseExpired leaseTtlMs entry now = true := by
    simp only [leaseExpired, hReserved, decide_true, Bool.true_and, decide_eq_true_eq]
    omega
  rw [assertReserved, bind_of_ok hFound, bind_of_ok (throwIf_of_not hLive _ _)]
  exact throwIf_of_not (by simp [hReserved]) _ _

theorem commitStartOp_idle (state : SafetyControllerState) {leaseTtlMs now : Int} {lease : SafetyLease}
    {entry : LedgerEntry} (hSwitches : state.switches = []) (hCircuits : state.circuits = [])
    (hFind : state.ledger.find? (·.key == lease.key) = some entry) (hReserved : entry.status = .reserved)
    (hTime : now - entry.admittedAt ≤ leaseTtlMs) :
    commitStartOp leaseTtlMs lease now state = (.ok (), state) := by
  rw [commitStartOp, bind_of_ok (assertReserved_of_find hFind hReserved hTime)]
  exact assertActionAllowed_idle hSwitches hCircuits _ _

theorem Valid.prunedState {state : SafetyControllerState} (h : Valid state) (leaseTtlMs now : Int) :
    Valid (prunedState state leaseTtlMs now) :=
  { h with
    ledgerLength := (List.length_filter_le _ _).trans h.ledgerLength
    ledgerEntries := fun entry he => h.ledgerEntries entry (List.mem_filter.mp he).1
    ledgerKeys := h.ledgerKeys.sublist (List.filter_sublist.map _)
    idempotencyKeys := h.idempotencyKeys.sublist (List.filter_sublist.map _) }

theorem nodup_concat {α : Type} {xs : List α} {x : α} (h : xs.Nodup) (hNew : x ∉ xs) : (xs ++ [x]).Nodup := by
  rw [List.nodup_append]
  refine ⟨h, List.nodup_singleton x, ?_⟩
  rintro a ha b hb rfl
  cases List.mem_singleton.mp hb
  exact hNew ha

theorem Valid.reservedState {state : SafetyControllerState} (h : Valid state) {action : SafetyAction} {now : Int}
    (hNow : Printable now)
    (hFresh : ∀ entry ∈ state.ledger,
      entry.action.idempotencyKey ≠ action.idempotencyKey ∧ entry.key ≠ ledgerKey action)
    (hLedger : state.ledger.length < MAX_LEDGER) (hAudit : state.audit.length < MAX_AUDIT)
    (hKey : acceptsText 300 (ledgerKey action) = true) (hTrim : trim (ledgerKey action) = ledgerKey action) :
    Valid (reservedState state action now hKey) := by
  refine Valid.withAudit ?_ hNow hAudit
  refine { h with ledgerLength := ?_, ledgerEntries := ?_, ledgerKeys := ?_, idempotencyKeys := ?_ }
  · rw [List.length_append]
    exact hLedger
  · intro entry he
    rcases List.mem_append.mp he with hOld | hNew
    · exact h.ledgerEntries entry hOld
    · cases List.mem_singleton.mp hNew
      exact ⟨trivial, ⟨hKey, hTrim⟩, hNow⟩
  · rw [List.map_append]
    refine nodup_concat h.ledgerKeys ?_
    intro hMem
    obtain ⟨entry, he, hEq⟩ := List.mem_map.mp hMem
    exact (hFresh entry he).2 hEq
  · rw [List.map_append]
    refine nodup_concat h.idempotencyKeys ?_
    intro hMem
    obtain ⟨entry, he, hEq⟩ := List.mem_map.mp hMem
    exact (hFresh entry he).1 (Subtype.ext hEq)

/-! ## Locked steps -/

theorem timed_of {α : Type} {operation : Int → Op α} {now : Int} {s s' : SafetyControllerState} {a : α}
    (h : operation now s = (.ok a, s')) : timed operation now s = (.ok (a, now), s') := by
  rw [timed, bind_of_ok h]
  rfl

theorem perform_admission {options : Options} {leases : List Admission} {store : Store} {value : JsValue}
    {action : SafetyAction} {now : Int} {replay : Bool} {before after : SafetyControllerState}
    (hAction : validateAction value = .ok action) (hRead : read store = .ok before)
    (hNow : now.natAbs ≤ 8640000000000000) (hRun : admitOp options.leaseTtlMs action now before = (.ok replay, after))
    (hValid : Valid after) :
    perform options leases (some now) store (.admitAction value) = .ok (.admitted ⟨⟨action, replay⟩, now⟩, some after) := by
  rw [perform, hAction, ok_bind, mutate, format_accepts.mutate_of hRead hNow (timed_of hRun) hValid]
  rfl

theorem perform_commitStart {options : Options} {leases : List Admission} {store : Store} {index : Nat}
    {admission : Admission} {now : Int} {before after : SafetyControllerState}
    (hFound : leases[index]? = some admission) (hReplay : admission.lease.replay = false)
    (hRead : read store = .ok before) (hNow : now.natAbs ≤ 8640000000000000)
    (hRun : commitStartOp options.leaseTtlMs admission.lease now before = (.ok (), after)) (hValid : Valid after) :
    perform options leases (some now) store (.onLease index .commitStart) =
      .ok (.started ⟨index, admission.lease.action, now⟩, some after) := by
  rw [perform, hFound]
  change performLease options index admission.lease (some now) store .commitStart = _
  rw [performLease, hReplay, if_neg Bool.false_ne_true, mutate, format_accepts.mutate_of hRead hNow (timed_of hRun) hValid]
  rfl

theorem take_of_perform {options : Options} {s : System} {event : Event} {answer : Answer} {store : Store}
    (hAnswered : event.answered = true)
    (h : perform options s.leases event.clock s.store event.call = .ok (answer, store)) :
    s.take options event = (s.stored options.leaseTtlMs answer store).note answer := by
  rw [System.take, h]
  exact if_pos hAnswered

/-! ## A payment -/

def payment (key : String) : JsValue :=
  let amount (n : Int) : JsValue := .number (.integer n)
  .object [("organizationId", .string "acme"), ("projectId", .string "shop"), ("environment", .string "live"),
    ("actorId", .string "agent"), ("workloadId", .string "job"), ("provider", .string "bank"),
    ("operation", .string "pay"), ("riskClass", .string "money_movement"), ("idempotencyKey", .string key),
    ("actionHash", .string "0000000000000000000000000000000000000000000000000000000000000000"),
    ("costs", .object [("monetaryAmountMinor", amount 5), ("requests", amount 1), ("messages", amount 0),
      ("mutations", amount 0), ("deletes", amount 0), ("tokenCost", amount 0)])]

theorem acme_isIdentifier : isIdentifier "acme" = true := by decide +kernel

def paymentAction (key : Identifier) : SafetyAction where
  organizationId := ⟨"acme", acme_isIdentifier⟩
  projectId := ⟨"shop", by decide +kernel⟩
  environment := ⟨"live", by decide +kernel⟩
  actorId := ⟨"agent", by decide +kernel⟩
  workloadId := ⟨"job", by decide +kernel⟩
  provider := ⟨"bank", by decide +kernel⟩
  operation := ⟨"pay", by decide +kernel⟩
  riskClass := .moneyMovement
  idempotencyKey := key
  actionHash := ⟨"0000000000000000000000000000000000000000000000000000000000000000", by decide +kernel⟩
  costs := ⟨⟨5, by decide⟩, ⟨1, one_isAmount⟩, ⟨0, zero_isAmount⟩, ⟨0, zero_isAmount⟩, ⟨0, zero_isAmount⟩, ⟨0, zero_isAmount⟩⟩

def firstKey : Identifier := ⟨"k1", by decide +kernel⟩

def secondKey : Identifier := ⟨"k2", by decide +kernel⟩

theorem payments_accepted : ∀ key ∈ [firstKey, secondKey], validateAction (payment key.val) = .ok (paymentAction key) ∧
    acceptsText 300 (ledgerKey (paymentAction key)) = true ∧
      trim (ledgerKey (paymentAction key)) = ledgerKey (paymentAction key) := by decide +kernel

theorem firstKey_mem : firstKey ∈ [firstKey, secondKey] := List.mem_cons_self

theorem secondKey_mem : secondKey ∈ [firstKey, secondKey] := List.mem_cons_of_mem _ List.mem_cons_self

theorem validateAction_first : validateAction (payment "k1") = .ok (paymentAction firstKey) :=
  (payments_accepted firstKey firstKey_mem).1

theorem validateAction_second : validateAction (payment "k2") = .ok (paymentAction secondKey) :=
  (payments_accepted secondKey secondKey_mem).1

theorem acceptsKey_first : acceptsText 300 (ledgerKey (paymentAction firstKey)) = true :=
  (payments_accepted firstKey firstKey_mem).2.1

theorem acceptsKey_second : acceptsText 300 (ledgerKey (paymentAction secondKey)) = true :=
  (payments_accepted secondKey secondKey_mem).2.1

theorem trimKey_first : trim (ledgerKey (paymentAction firstKey)) = ledgerKey (paymentAction firstKey) :=
  (payments_accepted firstKey firstKey_mem).2.2

theorem trimKey_second : trim (ledgerKey (paymentAction secondKey)) = ledgerKey (paymentAction secondKey) :=
  (payments_accepted secondKey secondKey_mem).2.2

theorem valid_emptyState : Valid emptyState := validateState_eq_ok.mp rfl |>.1

theorem times_printable : ∀ now ∈ [0, 60001], Printable now := by
  simp only [Printable]
  decide +kernel

theorem printable_zero : Printable 0 := times_printable 0 (by decide)

theorem printable_minute : Printable 60001 := times_printable 60001 (by decide)

/-- A small state in which nothing is admitted, stopped or watched. -/
structure Idle (state : SafetyControllerState) : Prop where
  valid : Valid state
  switches : state.switches = []
  circuits : state.circuits = []
  ledger : state.ledger = []
  records : state.records ≤ 10
  audit : state.audit.length ≤ 10

theorem idle_emptyState : Idle emptyState := ⟨valid_emptyState, rfl, rfl, rfl, by decide, by decide⟩

def paidState (base : SafetyControllerState) : SafetyControllerState :=
  reservedState base (paymentAction firstKey) 0 acceptsKey_first

theorem records_reservedState (state : SafetyControllerState) (action : SafetyAction) (now : Int)
    (hKey : acceptsText 300 (ledgerKey action) = true) :
    (reservedState state action now hKey).records = state.records + 1 ∧
      (reservedState state action now hKey).audit.length = state.audit.length + 1 := by
  simp only [reservedState, withAudit, SafetyControllerState.records, List.length_append, List.length_singleton]
  exact ⟨by omega, trivial⟩

section Base

variable {base : SafetyControllerState} (h : Idle base)
include h

theorem Idle.valid_paid : Valid (paidState base) := by
  refine h.valid.reservedState printable_zero ?_ ?_ ?_ acceptsKey_first trimKey_first
  · rw [h.ledger]
    rintro _ ⟨⟩
  · rw [h.ledger]
    decide
  · exact lt_of_le_of_lt h.audit (by decide)

theorem Idle.read_paid : read (some (paidState base)) = .ok (paidState base) := by
  obtain ⟨hRecords, hAudit⟩ := records_reservedState base (paymentAction firstKey) 0 acceptsKey_first
  have hBase := h.records
  have hBaseAudit := h.audit
  exact read_of_small h.valid_paid (by rw [paidState]; omega) (by rw [paidState]; omega)

theorem Idle.paid_ledger : (paidState base).ledger = [reservation (paymentAction firstKey) 0] := by
  simp [paidState, reservedState, withAudit, h.ledger]

theorem Idle.admit_paid (leaseTtlMs : Int) (hBudgets : assertBudgets base (paymentAction firstKey) 0 = .ok ()) :
    admitOp leaseTtlMs (paymentAction firstKey) 0 base = (.ok false, paidState base) := by
  have hPruned : prunedState base leaseTtlMs 0 = base := by
    cases base
    cases h.ledger
    rfl
  have hNone : pruned leaseTtlMs 0 base.ledger = [] := by rw [h.ledger]; rfl
  have hRun := admitOp_idle base h.switches h.circuits (by rw [hNone]; rintro _ ⟨⟩)
    (by rw [hNone]; decide) (lt_of_le_of_lt h.audit (by decide)) (by rwa [hPruned]) acceptsKey_first
  rwa [hPruned] at hRun

/-- The second payment, or the first one again, after the lease of the first has run out. -/
def repaidState (base : SafetyControllerState) (key : Identifier)
    (hKey : acceptsText 300 (ledgerKey (paymentAction key)) = true) : SafetyControllerState :=
  reservedState (prunedState (paidState base) 60000 60001) (paymentAction key) 60001 hKey

omit h in
theorem payment_expires : pruned 60000 60001 [reservation (paymentAction firstKey) 0] = [] ∧
    [reservation (paymentAction firstKey) 0].filter (leaseExpired 60000 · 60001) =
      [reservation (paymentAction firstKey) 0] := by decide +kernel

variable {key : Identifier} (hKey : acceptsText 300 (ledgerKey (paymentAction key)) = true)
  (hTrim : trim (ledgerKey (paymentAction key)) = ledgerKey (paymentAction key))

theorem Idle.pruned_paid : pruned 60000 60001 (paidState base).ledger = [] := by
  rw [h.paid_ledger]
  exact payment_expires.1

include hTrim in
theorem Idle.valid_repaid : Valid (repaidState base key hKey) := by
  have hAudit := (records_reservedState base (paymentAction firstKey) 0 acceptsKey_first).2
  have hBase := h.audit
  have hLedger : (prunedState (paidState base) 60000 60001).ledger = [] := h.pruned_paid
  refine (h.valid_paid.prunedState 60000 60001).reservedState printable_minute ?_ ?_ ?_ hKey hTrim
  · rw [hLedger]
    rintro _ ⟨⟩
  · rw [hLedger]
    decide
  · show (paidState base).audit.length < MAX_AUDIT
    rw [paidState, hAudit]
    exact lt_of_le_of_lt (Nat.succ_le_succ hBase) (by decide)

include hTrim in
theorem Idle.read_repaid : read (some (repaidState base key hKey)) = .ok (repaidState base key hKey) := by
  obtain ⟨hRecords, hAudit⟩ := records_reservedState base (paymentAction firstKey) 0 acceptsKey_first
  obtain ⟨hRecords', hAudit'⟩ :=
    records_reservedState (prunedState (paidState base) 60000 60001) (paymentAction key) 60001 hKey
  have hPrunedRecords : (prunedState (paidState base) 60000 60001).records ≤ (paidState base).records := by
    have hLength : (pruned 60000 60001 (paidState base).ledger).length ≤ (paidState base).ledger.length :=
      List.length_filter_le _ _
    simp only [SafetyControllerState.records, prunedState]
    omega
  have hPrunedAudit : (prunedState (paidState base) 60000 60001).audit = (paidState base).audit := rfl
  have hBase := h.records
  have hBaseAudit := h.audit
  rw [paidState] at hPrunedRecords hPrunedAudit
  refine read_of_small (h.valid_repaid hKey hTrim) ?_ ?_
  · rw [repaidState, hRecords', paidState]
    omega
  · rw [repaidState, hAudit', paidState, hPrunedAudit]
    omega

theorem Idle.admit_repaid
    (hBudgets : assertBudgets (prunedState (paidState base) 60000 60001) (paymentAction key) 60001 = .ok ()) :
    admitOp 60000 (paymentAction key) 60001 (paidState base) = (.ok false, repaidState base key hKey) := by
  have hAudit : (paidState base).audit.length = base.audit.length + 1 :=
    (records_reservedState base (paymentAction firstKey) 0 acceptsKey_first).2
  have hRoom : (paidState base).audit.length < MAX_AUDIT := by
    rw [hAudit]
    exact lt_of_le_of_lt (Nat.succ_le_succ h.audit) (by decide)
  exact admitOp_idle (paidState base) h.switches h.circuits (by rw [h.pruned_paid]; rintro _ ⟨⟩) (by rw [h.pruned_paid]; decide)
    hRoom hBudgets hKey

theorem Idle.commit_paid : commitStartOp 60000 ⟨paymentAction firstKey, false⟩ 0 (paidState base) =
    (.ok (), paidState base) := by
  have hFind : (paidState base).ledger.find? (·.key == ledgerKey (paymentAction firstKey)) =
      some (reservation (paymentAction firstKey) 0) := by
    rw [h.paid_ledger]
    exact List.find?_cons_of_pos (beq_self_eq_true _)
  exact commitStartOp_idle (paidState base) h.switches h.circuits hFind rfl (by decide : (0 : Int) - 0 ≤ 60000)

theorem Idle.commit_repaid : commitStartOp 60000 ⟨paymentAction key, false⟩ 60001 (repaidState base key hKey) =
    (.ok (), repaidState base key hKey) := by
  have hLedger : (repaidState base key hKey).ledger = [reservation (paymentAction key) 60001] := by
    simp only [repaidState, reservedState, withAudit, prunedState, h.pruned_paid, List.nil_append]
  have hFind : (repaidState base key hKey).ledger.find? (·.key == ledgerKey (paymentAction key)) =
      some (reservation (paymentAction key) 60001) := by
    rw [hLedger]
    exact List.find?_cons_of_pos (beq_self_eq_true _)
  exact commitStartOp_idle (repaidState base key hKey) h.switches h.circuits hFind rfl
    (by decide : (60001 : Int) - 60001 ≤ 60000)

end Base

/-! ## Steps of the payment -/

def paidSystem (base : SafetyControllerState) (started : List Start) : System where
  store := some (paidState base)
  leases := [⟨⟨paymentAction firstKey, false⟩, 0⟩]
  started := started

def repaidSystem (base : SafetyControllerState) (key : Identifier)
    (hKey : acceptsText 300 (ledgerKey (paymentAction key)) = true) (started : List Start) : System where
  store := some (repaidState base key hKey)
  leases := [⟨⟨paymentAction firstKey, false⟩, 0⟩, ⟨⟨paymentAction key, false⟩, 60001⟩]
  started := started
  reclaimed := [⟨reservation (paymentAction firstKey) 0, 60001⟩]

def firstStart : Start := ⟨0, paymentAction firstKey, 0⟩

def secondStart (key : Identifier) : Start := ⟨1, paymentAction key, 60001⟩

section Steps

variable {options : Options} (hTtl : options.leaseTtlMs = 60000) {base : SafetyControllerState} (h : Idle base)
include h

theorem Idle.take_admission {store : Store} (hRead : read store = .ok base)
    (hBudgets : assertBudgets base (paymentAction firstKey) 0 = .ok ()) :
    System.take options { store } ⟨.admitAction (payment "k1"), some 0, true⟩ = paidSystem base [] := by
  have hPerform : perform options [] (some 0) store (.admitAction (payment "k1")) =
      .ok (.admitted ⟨⟨paymentAction firstKey, false⟩, 0⟩, some (paidState base)) :=
    perform_admission validateAction_first hRead (Nat.zero_le _) (h.admit_paid _ hBudgets) h.valid_paid
  have hStore : base = store.getD emptyState := format_accepts.read_ok hRead
  have hState : ({ store } : System).state.ledger = [] := by rw [System.state, ← hStore, h.ledger]
  refine Eq.trans (take_of_perform rfl hPerform) ?_
  simp only [System.stored, System.note, System.dropped, hState]
  rfl

include hTtl

theorem Idle.take_commit (started : List Start) :
    System.take options (paidSystem base started) ⟨.onLease 0 .commitStart, some 0, true⟩ =
      paidSystem base (started ++ [firstStart]) := by
  have hRun : commitStartOp options.leaseTtlMs ⟨paymentAction firstKey, false⟩ 0 (paidState base) =
      (.ok (), paidState base) := by
    rw [hTtl]
    exact h.commit_paid
  have hLease : (paidSystem base started).leases[0]? = some ⟨⟨paymentAction firstKey, false⟩, 0⟩ := rfl
  have hPerform : perform options (paidSystem base started).leases (some 0) (some (paidState base))
      (.onLease 0 .commitStart) = .ok (.started firstStart, some (paidState base)) :=
    perform_commitStart hLease rfl h.read_paid (Nat.zero_le _) hRun h.valid_paid
  exact Eq.trans (take_of_perform rfl hPerform) rfl

variable {key : Identifier} {value : JsValue} (hAction : validateAction value = .ok (paymentAction key))
  (hKey : acceptsText 300 (ledgerKey (paymentAction key)) = true)
  (hTrim : trim (ledgerKey (paymentAction key)) = ledgerKey (paymentAction key))

include hAction hTrim

theorem Idle.take_readmission (started : List Start)
    (hBudgets : assertBudgets (prunedState (paidState base) 60000 60001) (paymentAction key) 60001 = .ok ()) :
    System.take options (paidSystem base started) ⟨.admitAction value, some 60001, true⟩ =
      repaidSystem base key hKey started := by
  have hRun : admitOp options.leaseTtlMs (paymentAction key) 60001 (paidState base) =
      (.ok false, repaidState base key hKey) := by
    rw [hTtl]
    exact h.admit_repaid hKey hBudgets
  have hPerform : perform options (paidSystem base started).leases (some 60001) (some (paidState base))
      (.admitAction value) = .ok (.admitted ⟨⟨paymentAction key, false⟩, 60001⟩, some (repaidState base key hKey)) :=
    perform_admission hAction h.read_paid (by decide +kernel) hRun (h.valid_repaid hKey hTrim)
  have hLedger : (paidSystem base started).state.ledger = [reservation (paymentAction firstKey) 0] := h.paid_ledger
  refine Eq.trans (take_of_perform rfl hPerform) ?_
  simp only [System.stored, System.note, System.dropped, hLedger, hTtl, payment_expires.2]
  rfl

omit hAction

theorem Idle.take_recommit (started : List Start) :
    System.take options (repaidSystem base key hKey started) ⟨.onLease 1 .commitStart, some 60001, true⟩ =
      repaidSystem base key hKey (started ++ [secondStart key]) := by
  have hRun : commitStartOp options.leaseTtlMs ⟨paymentAction key, false⟩ 60001 (repaidState base key hKey) =
      (.ok (), repaidState base key hKey) := by
    rw [hTtl]
    exact h.commit_repaid hKey
  have hLease : (repaidSystem base key hKey started).leases[1]? = some ⟨⟨paymentAction key, false⟩, 60001⟩ := rfl
  have hPerform : perform options (repaidSystem base key hKey started).leases (some 60001)
      (some (repaidState base key hKey)) (.onLease 1 .commitStart) =
        .ok (.started (secondStart key), some (repaidState base key hKey)) :=
    perform_commitStart hLease rfl (h.read_repaid hKey hTrim) (by decide +kernel) hRun (h.valid_repaid hKey hTrim)
  exact Eq.trans (take_of_perform rfl hPerform) rfl

end Steps

end GhostApi.Safety
