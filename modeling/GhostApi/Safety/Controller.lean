import GhostApi.Lib.HashChain
import GhostApi.Lib.Table
import GhostApi.Safety.Types
import GhostApi.Storage.JsonStore

/-!
# The local safety controller

The stored state, the checks that are repeated on every read and write, and
the operations of the controller as computations on the state. A clock time
is kept in milliseconds and printed when it is checked, hashed or written.
-/

namespace GhostApi.Safety

open Js Validation Storage Effect Effect.Mutation Table

structure SafetySwitch where
  scope : SafetyScope
  enabled : Bool
  changedAt : Int
  reason : Text 200
  changedBy : Identifier
  deriving DecidableEq

inductive LedgerStatus
  | reserved
  | completed (completedAt : Int) (outcome : SafetyOutcome)
  deriving DecidableEq

structure LedgerEntry where
  key : String
  action : SafetyAction
  status : LedgerStatus
  admittedAt : Int
  deriving DecidableEq

structure SafetyQueueItem where
  id : String
  action : SafetyAction
  queuedAt : Int
  deriving DecidableEq

structure SafetyDeadLetter extends SafetyQueueItem where
  reason : Text 200
  deadLetteredAt : Int
  deriving DecidableEq

structure AuditBase where
  sequence : Nat
  event : Text 80
  subject : Text 300
  reason : Text 200
  actorPrincipalId : Option Identifier
  timestamp : Int
  previousHash : Hash
  deriving DecidableEq

structure SafetyAuditRecord extends AuditBase where
  recordHash : Hash
  deriving DecidableEq

structure SafetyControllerState where
  switches : List SafetySwitch
  budgets : List SafetyBudget
  circuits : List SafetyCircuit
  ledger : List LedgerEntry
  queue : List SafetyQueueItem
  deadLetters : List SafetyDeadLetter
  auditAnchor : Hash
  audit : List SafetyAuditRecord
  deriving DecidableEq

def emptyState : SafetyControllerState :=
  ⟨[], [], [], [], [], [], hashOf "ghostapi.safety.audit.v1", []⟩

/-! ## Stored form -/

def time (ms : Int) : Json := .string (Date.toISOString ms)

def SafetyScope.toJson : SafetyScope → Json
  | .global => .object [("kind", .string "global")]
  | .keyed kind id => .object [("kind", .string kind.text), ("id", .string id.val)]

def SafetyCosts.toJson (costs : SafetyCosts) : Json :=
  .object (CostCategory.all.map fun category => (category.text, .number (costs.get category)))

def SafetyAction.toJson (action : SafetyAction) : Json :=
  .object [("organizationId", .string action.organizationId.val), ("projectId", .string action.projectId.val),
    ("environment", .string action.environment.val), ("actorId", .string action.actorId.val),
    ("workloadId", .string action.workloadId.val), ("provider", .string action.provider.val),
    ("operation", .string action.operation.val), ("riskClass", .string action.riskClass.text),
    ("idempotencyKey", .string action.idempotencyKey.val), ("actionHash", .string action.actionHash.val),
    ("costs", action.costs.toJson)]

def SafetyBudgetLimits.toJson (limits : SafetyBudgetLimits) : Json :=
  let limit (key : String) (value : Option Amount) := Json.optional key (value.map fun n => .number n.val)
  .object (CostCategory.all.flatMap (fun category => limit category.text (limits.get category)) ++
    limit "concurrency" limits.concurrency ++ limit "velocity" limits.velocity)

def SafetyBudget.toJson (budget : SafetyBudget) : Json :=
  .object [("id", .string budget.id.val), ("scope", budget.scope.toJson), ("windowMs", .number budget.windowMs.val),
    ("velocityWindowMs", .number budget.velocityWindowMs.val), ("limits", budget.limits.toJson)]

def CircuitState.members : CircuitState → List (String × Json)
  | .closed => [("state", .string "closed")]
  | .opened openedAt reason =>
    [("state", .string "open"), ("openedAt", .string openedAt), ("reason", .string reason.val)]

def SafetyCircuit.toJson (circuit : SafetyCircuit) : Json :=
  .object ([("id", .string circuit.id.val), ("scope", circuit.scope.toJson),
    ("windowMs", .number circuit.windowMs.val), ("minimumSamples", .number circuit.minimumSamples.val),
    ("maxFailureRateBps", .number circuit.maxFailureRateBps.val),
    ("maxPolicyViolations", .number circuit.maxPolicyViolations.val),
    ("maxLatencyMs", .number circuit.maxLatencyMs.val),
    ("maxReconciliationMismatches", .number circuit.maxReconciliationMismatches.val)] ++ circuit.state.members)

def SafetyOutcome.toJson (outcome : SafetyOutcome) : Json :=
  .object ([("success", .bool outcome.success), ("policyViolation", .bool outcome.policyViolation),
    ("reconciliationMismatch", .bool outcome.reconciliationMismatch), ("latencyMs", .number outcome.latencyMs.val)] ++
    Json.optional "reason" (outcome.reason.map fun reason => .string reason.val))

def SafetySwitch.toJson (control : SafetySwitch) : Json :=
  .object [("scope", control.scope.toJson), ("enabled", .bool control.enabled), ("changedAt", time control.changedAt),
    ("reason", .string control.reason.val), ("changedBy", .string control.changedBy.val)]

def LedgerStatus.members : LedgerStatus → Int → List (String × Json)
  | .reserved, admittedAt => [("status", .string "reserved"), ("admittedAt", time admittedAt)]
  | .completed completedAt outcome, admittedAt =>
    [("status", .string "completed"), ("admittedAt", time admittedAt), ("completedAt", time completedAt),
      ("outcome", outcome.toJson)]

def LedgerEntry.toJson (entry : LedgerEntry) : Json :=
  .object ([("key", .string entry.key), ("action", entry.action.toJson)] ++ entry.status.members entry.admittedAt)

def SafetyQueueItem.members (item : SafetyQueueItem) : List (String × Json) :=
  [("id", .string item.id), ("action", item.action.toJson), ("queuedAt", time item.queuedAt)]

def SafetyDeadLetter.toJson (item : SafetyDeadLetter) : Json :=
  .object (item.members ++ [("reason", .string item.reason.val), ("deadLetteredAt", time item.deadLetteredAt)])

def AuditBase.members (base : AuditBase) : List (String × Json) :=
  [("sequence", .number base.sequence), ("event", .string base.event.val), ("subject", .string base.subject.val),
    ("reason", .string base.reason.val)] ++
    Json.optional "actorPrincipalId" (base.actorPrincipalId.map fun id => .string id.val) ++
    [("timestamp", time base.timestamp), ("previousHash", .string base.previousHash.val)]

def AuditBase.seal (base : AuditBase) : SafetyAuditRecord :=
  { base with recordHash := hashOf (Json.canonical (.object base.members)) }

def SafetyAuditRecord.toJson (record : SafetyAuditRecord) : Json :=
  .object (record.members ++ [("recordHash", .string record.recordHash.val)])

def SafetyControllerState.toJson (state : SafetyControllerState) : Json :=
  .object [("schemaVersion", .number 1), ("switches", .array (state.switches.map SafetySwitch.toJson)),
    ("budgets", .array (state.budgets.map SafetyBudget.toJson)),
    ("circuits", .array (state.circuits.map SafetyCircuit.toJson)),
    ("ledger", .array (state.ledger.map LedgerEntry.toJson)),
    ("queue", .array (state.queue.map fun item => .object item.members)),
    ("deadLetters", .array (state.deadLetters.map SafetyDeadLetter.toJson)),
    ("auditAnchor", .string state.auditAnchor.val), ("audit", .array (state.audit.map SafetyAuditRecord.toJson))]

/-! ## Validation of the state

Identifiers, hashes, texts and bounded numbers are valid by their types. -/

def validateSwitch (control : SafetySwitch) : Except JsError Unit :=
  stamp fail control.changedAt "Safety switch time"

def validateCircuitState : CircuitState → Except JsError Unit
  | .closed => .ok ()
  | .opened openedAt _ => checkTimestamp fail openedAt "Safety circuit open time"

def validateStatus : LedgerStatus → Except JsError Unit
  | .reserved => .ok ()
  | .completed completedAt _ => stamp fail completedAt "Safety completion time"

def validateKey (entry : LedgerEntry) : Except JsError Unit := do
  let key ← text fail (.string entry.key) "Safety ledger key" 300
  if key.val = ledgerKey entry.action then return ()
  else throw (fail "Safety ledger key does not match its action.")

def validateLedger (entry : LedgerEntry) : Except JsError Unit := do
  validateStatus entry.status
  validateKey entry
  stamp fail entry.admittedAt "Safety admission time"

def validateQueueItem (item : SafetyQueueItem) : Except JsError Unit := do
  checkIdentifier fail item.id "Safety queue id"
  stamp fail item.queuedAt "Safety queue time"

def validateDeadLetter (item : SafetyDeadLetter) : Except JsError Unit := do
  validateQueueItem item.toSafetyQueueItem
  stamp fail item.deadLetteredAt "Safety dead-letter time"

def validateAudit (record : SafetyAuditRecord) : Except JsError Unit :=
  if 1 ≤ record.sequence ∧ record.sequence ≤ MAX_AUDIT then do
    stamp fail record.timestamp "Safety audit time"
    if record.recordHash = record.toAuditBase.seal.recordHash then return ()
    else throw (fail "Safety audit record hash is invalid.")
  else throw (fail "Safety audit sequence is invalid.")

def auditChain : NumberedChain SafetyAuditRecord Hash where
  sequence record := record.sequence
  previousHash record := record.previousHash
  recordHash := SafetyAuditRecord.recordHash

def validateAuditChain (anchor : Hash) (records : List SafetyAuditRecord) : Except JsError Unit :=
  auditChain.verify (fail "Safety audit chain is invalid.") anchor 1 records

def validateState (state : SafetyControllerState) : Except JsError SafetyControllerState := do
  atMost fail state.switches "Safety switches" MAX_CONTROLS
  state.switches.forM validateSwitch
  unique fail (state.switches.map fun control => scopeKey control.scope) "Safety switch scopes"
  atMost fail state.budgets "Safety budgets" MAX_CONTROLS
  unique fail (state.budgets.map fun budget => budget.id.val) "Safety budget ids"
  atMost fail state.circuits "Safety circuits" MAX_CONTROLS
  state.circuits.forM fun circuit => validateCircuitState circuit.state
  unique fail (state.circuits.map fun circuit => circuit.id.val) "Safety circuit ids"
  atMost fail state.ledger "Safety ledger" MAX_LEDGER
  state.ledger.forM validateLedger
  unique fail (state.ledger.map LedgerEntry.key) "Safety ledger keys"
  unique fail (state.ledger.map fun entry => entry.action.idempotencyKey.val) "Safety ledger idempotency keys"
  atMost fail state.queue "Safety queue" MAX_QUEUE
  state.queue.forM validateQueueItem
  unique fail (state.queue.map SafetyQueueItem.id) "Safety queue ids"
  atMost fail state.deadLetters "Safety dead-letter queue" MAX_DEAD_LETTERS
  state.deadLetters.forM validateDeadLetter
  unique fail (state.deadLetters.map fun item => item.id) "Safety dead-letter ids"
  atMost fail state.audit "Safety audit" MAX_AUDIT
  state.audit.forM validateAudit
  validateAuditChain state.auditAnchor state.audit
  return state

/-! ## Steps inside an operation -/

abbrev Op := Mutation SafetyControllerState JsError

def appendAudit (event subject reason : String) (now : Int) (actorPrincipalId : Option Identifier) : Op Unit := do
  let state ← get
  throwIf (MAX_AUDIT ≤ state.audit.length) (fail "Safety audit limit was reached.")
  let event ← text fail (.string event) "Safety audit event" 80
  let subject ← text fail (.string subject) "Safety audit subject" 300
  let reason ← text fail (.string reason) "Safety audit reason" 200
  let base : AuditBase := {
    sequence := state.audit.length + 1
    event, subject, reason, actorPrincipalId
    timestamp := now
    previousHash := auditChain.latest state.auditAnchor state.audit }
  modify fun state => { state with audit := state.audit ++ [base.seal] }

def setSwitch (scope : SafetyScope) (enabled : Bool) (reason : Text 200) (principalId : Identifier) (now : Int) :
    Op Unit := do
  let state ← get
  let same (control : SafetySwitch) := sameScope control.scope scope
  throwIf (¬state.switches.any same ∧ MAX_CONTROLS ≤ state.switches.length)
    (fail "Safety switch limit was reached.")
  modify fun state => { state with switches := upsert same ⟨scope, enabled, now, reason, principalId⟩ state.switches }

def rateBps (count total : Nat) : Nat := if total = 0 then 0 else count * 10000 / total

def CircuitState.isOpen : CircuitState → Bool
  | .closed => false
  | .opened _ _ => true

/-- Outcomes of the completed actions in the scope and window of a circuit. -/
def circuitOutcomes (state : SafetyControllerState) (circuit : SafetyCircuit) (now : Int) : List SafetyOutcome :=
  state.ledger.filterMap fun entry => match entry.status with
    | .reserved => none
    | .completed completedAt outcome =>
      if scopeMatches circuit.scope entry.action ∧ now - circuit.windowMs.val ≤ completedAt then some outcome
      else none

def tripReason (circuit : SafetyCircuit) (outcomes : List SafetyOutcome) : Option (Text 200) :=
  let count (flag : SafetyOutcome → Bool) := (outcomes.filter flag).length
  if outcomes.length < circuit.minimumSamples.val then none
  else if circuit.maxFailureRateBps.val < rateBps (count fun o => !o.success) outcomes.length then
    some ⟨"failure rate exceeded", by decide +kernel⟩
  else if circuit.maxPolicyViolations.val < count SafetyOutcome.policyViolation then
    some ⟨"policy violation threshold exceeded", by decide +kernel⟩
  else if circuit.maxReconciliationMismatches.val < count SafetyOutcome.reconciliationMismatch then
    some ⟨"reconciliation mismatch threshold exceeded", by decide +kernel⟩
  else if outcomes.any fun o => circuit.maxLatencyMs.val < o.latencyMs.val then
    some ⟨"latency threshold exceeded", by decide +kernel⟩
  else none

def evaluateCircuit (now : Int) (position : Nat) (circuit : SafetyCircuit) : Op Unit := do
  let state ← get
  match tripReason circuit (circuitOutcomes state circuit now) with
  | none => pure ()
  | some reason =>
    let opened := { circuit with state := .opened (Date.toISOString now) reason }
    modify fun state => { state with circuits := state.circuits.set position opened }
    appendAudit "circuit.opened" circuit.id.val reason.val now none

def evaluateCircuits (action : SafetyAction) (now : Int) : Op Unit := do
  let state ← get
  each (fun (circuit, position) =>
      if !circuit.state.isOpen && scopeMatches circuit.scope action then evaluateCircuit now position circuit
      else pure ())
    state.circuits.zipIdx

def findOpenCircuit (state : SafetyControllerState) (action : SafetyAction) : Option SafetyCircuit :=
  state.circuits.find? fun circuit => circuit.state.isOpen && scopeMatches circuit.scope action

def assertClosed (action : SafetyAction) : Op Unit := do
  match findOpenCircuit (← get) action with
  | some circuit => throw (fail ("Safety circuit breaker is open: " ++ circuit.id.val ++ "."))
  | none => pure ()

def assertActionAllowed (action : SafetyAction) (now : Int) : Op Unit := do
  let state ← get
  match state.switches.find? fun control => control.enabled && scopeMatches control.scope action with
  | some stopped =>
    throw ⟨"SafetyControllerError", "Kill switch is active for " ++ scopeKey stopped.scope ++ ".",
      some KILL_SWITCH_ERROR_CODE⟩
  | none =>
    assertClosed action
    evaluateCircuits action now
    assertClosed action

/-- Ledger entries of a scope admitted in the window that ends now. -/
def windowEntries (ledger : List LedgerEntry) (scope : SafetyScope) (windowMs : Nat) (now : Int) :
    List LedgerEntry :=
  ledger.filter fun entry => scopeMatches scope entry.action && decide (now - windowMs ≤ entry.admittedAt)

def sumCosts (entries : List LedgerEntry) (category : CostCategory) : Nat :=
  (entries.map fun entry => entry.action.costs.get category).foldl Js.add 0

def assertLimit (limit : Option Amount) (value : Nat) (message : String) : Except JsError Unit := match limit with
  | none => .ok ()
  | some limit => if limit.val < value then .error (fail message) else .ok ()

def assertBudget (ledger : List LedgerEntry) (action : SafetyAction) (now : Int) (budget : SafetyBudget) :
    Except JsError Unit :=
  if scopeMatches budget.scope action then do
    let entries := windowEntries ledger budget.scope budget.windowMs.val now
    let recent := windowEntries ledger budget.scope budget.velocityWindowMs.val now
    CostCategory.all.forM fun category =>
      assertLimit (budget.limits.get category) (Js.add (sumCosts entries category) (action.costs.get category))
        ("Safety budget exceeded: " ++ budget.id.val ++ " " ++ category.text ++ ".")
    assertLimit budget.limits.concurrency ((entries.filter (·.status = .reserved)).length + 1)
      ("Safety budget exceeded: " ++ budget.id.val ++ " concurrency.")
    assertLimit budget.limits.velocity (Js.add (sumCosts recent .requests) (action.costs.get .requests))
      ("Safety velocity limit exceeded: " ++ budget.id.val ++ ".")
  else .ok ()

def assertBudgets (state : SafetyControllerState) (action : SafetyAction) (now : Int) : Except JsError Unit :=
  state.budgets.forM (assertBudget state.ledger action now)

def leaseExpired (leaseTtlMs : Int) (entry : LedgerEntry) (now : Int) : Bool :=
  decide (entry.status = .reserved) && decide (leaseTtlMs < now - entry.admittedAt)

def survivesPruning (leaseTtlMs now : Int) (entry : LedgerEntry) : Bool :=
  decide (entry.status ≠ .reserved) || decide (now - leaseTtlMs ≤ entry.admittedAt)

def pruneExpiredLeases (leaseTtlMs now : Int) : Op Unit :=
  modify fun state => { state with ledger := state.ledger.filter (survivesPruning leaseTtlMs now) }

def findLedger (key : String) : Op LedgerEntry := do
  match (← get).ledger.find? (·.key == key) with
  | some entry => pure entry
  | none => throw (fail "Safety lease was not found.")

def evictOldest (deadLetters : List SafetyDeadLetter) : List SafetyDeadLetter :=
  if MAX_DEAD_LETTERS ≤ deadLetters.length then deadLetters.tail else deadLetters

def addDeadLetter (item : SafetyQueueItem) (reason : String) (now : Int) : Op Unit := do
  modify fun state => { state with deadLetters := evictOldest state.deadLetters }
  let reason ← text fail (.string reason) "Safety dead-letter reason" 200
  modify fun state => { state with deadLetters := state.deadLetters ++ [⟨item, reason, now⟩] }

def deadLetterMatchingQueued (scope : SafetyScope) (reason : String) (now : Int) : Op Unit := do
  let state ← get
  each (fun item => do
      addDeadLetter item ("kill switch: " ++ reason) now
      appendAudit "queue.dead_lettered" item.id "kill switch stopped queued action" now none)
    (state.queue.filter (scopeMatches scope ·.action))
  modify fun state => { state with queue := state.queue.filter fun item => !scopeMatches scope item.action }

/-! ## Reading and writing the store -/

structure Options where
  authenticate : JsValue → Except JsError JsValue
  leaseTtlMs : Int := DEFAULT_LEASE_TTL_MS

/-- The stored state; none when the file does not exist. -/
abbrev Store := Option SafetyControllerState

def format : StoreFormat SafetyControllerState where
  empty := emptyState
  toJson := SafetyControllerState.toJson
  maxBytes := MAX_STORE_BYTES
  validate := validateState
  oversized := fail "Safety controller store exceeds its size limit."
  invalidClock := fail "Safety controller clock is invalid."

abbrev SafetyControllerState.bytes (state : SafetyControllerState) : Nat := format.bytes state

abbrev read : Store → Except JsError SafetyControllerState := format.read

abbrev mutate {α : Type} (operation : Int → Op α) (clock : Option Int) (store : Store) :
    Except JsError (α × SafetyControllerState) := format.mutate operation clock store

def authorize (options : Options) (identity : JsValue) (permission : SafetyOperatorPermission) :
    Except JsError SafetyOperator := do
  let operator ← validateOperator (← options.authenticate identity)
  if permission ∈ operator.permissions then return operator
  else throw (fail ("Emergency operator lacks required permission: " ++ permission.text ++ "."))

/-! ## Operations -/

def configureBudgetOp (operator : SafetyOperator) (budget : SafetyBudget) (now : Int) : Op SafetyBudget := do
  let state ← get
  let same (candidate : SafetyBudget) := candidate.id == budget.id
  throwIf (¬state.budgets.any same ∧ MAX_CONTROLS ≤ state.budgets.length) (fail "Safety budget limit was reached.")
  modify fun state => { state with budgets := upsert same budget state.budgets }
  appendAudit "budget.configured" budget.id.val ("configured " ++ scopeKey budget.scope) now operator.principalId
  return budget

def configureCircuitOp (operator : SafetyOperator) (circuit : SafetyCircuit) (now : Int) : Op SafetyCircuit := do
  let state ← get
  let same (candidate : SafetyCircuit) := candidate.id == circuit.id
  throwIf (¬state.circuits.any same ∧ MAX_CONTROLS ≤ state.circuits.length)
    (fail "Safety circuit limit was reached.")
  modify fun state => { state with circuits := upsert same circuit state.circuits }
  appendAudit "circuit.configured" circuit.id.val ("configured " ++ scopeKey circuit.scope) now operator.principalId
  return circuit

def stopOp (operator : SafetyOperator) (scope : SafetyScope) (reason : Text 200) (now : Int) : Op Unit := do
  setSwitch scope true reason operator.principalId now
  deadLetterMatchingQueued scope reason.val now
  appendAudit "kill_switch.stopped" (scopeKey scope) reason.val now operator.principalId

def reenableOp (operator : SafetyOperator) (scope : SafetyScope) (reason : Text 200) (now : Int) : Op Unit := do
  let state ← get
  let same (control : SafetySwitch) := sameScope control.scope scope
  throwIf (¬(state.switches.find? same).any SafetySwitch.enabled) (fail "Kill switch is not active for this scope.")
  modify fun state => { state with
    switches := upsert same ⟨scope, false, now, reason, operator.principalId⟩ state.switches }
  appendAudit "kill_switch.reenabled" (scopeKey scope) reason.val now operator.principalId

/-- The ledger has no other action under the idempotency key. -/
def assertNoCollision (action : SafetyAction) : Op Unit := do
  let same := (← get).ledger.find? (·.action.idempotencyKey == action.idempotencyKey)
  throwIf (same.any (·.action.actionHash ≠ action.actionHash))
    (fail "Safety idempotency key collides with a different action hash.")

def reserve (action : SafetyAction) (now : Int) : Op Bool := do
  assertActionAllowed action now
  let state ← get
  throwIf (MAX_LEDGER ≤ state.ledger.length) (fail "Safety ledger limit was reached.")
  liftM (assertBudgets state action now)
  modify fun state => { state with ledger := state.ledger ++ [⟨ledgerKey action, action, .reserved, now⟩] }
  appendAudit "action.admitted" (ledgerKey action) "budget reservation created" now none
  return false

def admitOp (leaseTtlMs : Int) (action : SafetyAction) (now : Int) : Op Bool := do
  pruneExpiredLeases leaseTtlMs now
  assertNoCollision action
  let state ← get
  if state.ledger.any (·.key == ledgerKey action) then return true else reserve action now

structure SafetyLease where
  action : SafetyAction
  replay : Bool
  deriving DecidableEq

def SafetyLease.key (lease : SafetyLease) : String := ledgerKey lease.action

def assertReserved (leaseTtlMs : Int) (key : String) (now : Int) : Op Unit := do
  let entry ← findLedger key
  throwIf (leaseExpired leaseTtlMs entry now) (fail "Safety lease has expired.")
  throwIf (entry.status ≠ .reserved) (fail "Safety lease is no longer active.")

def assertActiveOp (leaseTtlMs : Int) (lease : SafetyLease) (now : Int) : Op Unit := do
  assertReserved leaseTtlMs lease.key now
  assertActionAllowed lease.action now
  appendAudit "action.final_check" lease.key "kill switch, budgets, and circuits remain active" now none

def commitStartOp (leaseTtlMs : Int) (lease : SafetyLease) (now : Int) : Op Unit := do
  assertReserved leaseTtlMs lease.key now
  assertActionAllowed lease.action now

/-- The check of commit after the callback has returned. -/
def commitEndOp (leaseTtlMs : Int) (lease : SafetyLease) (now : Int) : Op Unit := do
  assertReserved leaseTtlMs lease.key now
  appendAudit "action.final_check" lease.key
    "kill switch, budgets, and circuits remained active through commit" now none

def completeAudit (lease : SafetyLease) (outcome : SafetyOutcome) (now : Int) : Op Unit :=
  appendAudit (if outcome.success then "action.completed" else "action.unknown") lease.key
    (match outcome.reason with
      | some reason => reason.val
      | none => if outcome.success then "action completed" else "action outcome is unknown") now none

def completeEntry (lease : SafetyLease) (outcome : SafetyOutcome) (entry : LedgerEntry) (now : Int) : Op Unit := do
  let completed : LedgerEntry := { entry with status := .completed now outcome }
  modify fun state => { state with ledger := upsert (·.key == lease.key) completed state.ledger }
  completeAudit lease outcome now
  evaluateCircuits entry.action now

def completeOp (lease : SafetyLease) (outcome : SafetyOutcome) (now : Int) : Op Unit := do
  let state ← get
  match state.ledger.find? (·.key == lease.key) with
  | none => completeAudit lease outcome now
  | some entry => if entry.status = .reserved then completeEntry lease outcome entry now else pure ()

def queueId (action : SafetyAction) (now : Int) : String :=
  digestName "queue-" (ledgerKey action ++ ":" ++ Date.toISOString now)

def pushQueue (item : SafetyQueueItem) (now : Int) : Op SafetyQueueItem := do
  let state ← get
  throwIf (MAX_QUEUE ≤ state.queue.length) (fail "Safety queue is full; backpressure is active.")
  modify fun state => { state with queue := state.queue ++ [item] }
  appendAudit "queue.enqueued" item.id "action is queued without execution" now none
  return item

def enqueueOp (action : SafetyAction) (now : Int) : Op SafetyQueueItem := do
  assertActionAllowed action now
  let state ← get
  match state.queue.find? (ledgerKey ·.action == ledgerKey action) with
  | some existing => return existing
  | none => pushQueue ⟨queueId action now, action, now⟩ now

def dequeueOp (now : Int) : Op (Option SafetyQueueItem) := do
  let state ← get
  match state.queue with
  | [] => return none
  | item :: rest =>
    modify fun state => { state with queue := rest }
    -- A denied item keeps what the checks changed before they threw.
    let denied : Option JsError ← tryCatch (do assertActionAllowed item.action now; pure none) (fun e => pure (some e))
    match denied with
    | some e =>
      addDeadLetter item e.message now
      appendAudit "queue.dead_lettered" item.id e.message now none
      return none
    | none =>
      appendAudit "queue.dequeued" item.id "dequeued for separate re-admission" now none
      return some item

/-- The closing record of a game day that stopped, was denied and re-enabled. -/
def gameDayPassedOp (action : SafetyAction) (reason : Text 200) (now : Int) : Op Unit :=
  appendAudit "game_day.passed" (ledgerKey action) reason.val now none

end GhostApi.Safety
