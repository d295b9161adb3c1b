import GhostApi.Ledger.System

/-!
# Reconciliation

A run exports the ledger of a tenant, groups the entries by action, asks the
provider about each action and stores findings. The service indicators of the
report are left out, and so is the SLO controller.
-/

namespace GhostApi.Reliability

open Js Validation Effect Effect.Mutation Storage Ledger

def MAX_STORE_BYTES : Nat := 4 * 1024 * 1024

def MAX_FINDINGS : Nat := 1000

def ReconciliationError (message : String) : JsError := ⟨"ReconciliationError", message, none⟩

abbrev refuse : String → JsError := ReconciliationError

inductive ReconciliationOutcome
  | committed
  | notCommitted
  | unknown
  | compensated
  | drifted
  deriving DecidableEq

def ReconciliationOutcome.all : List ReconciliationOutcome :=
  [.committed, .notCommitted, .unknown, .compensated, .drifted]

def ReconciliationOutcome.text : ReconciliationOutcome → String
  | .committed => "committed"
  | .notCommitted => "not_committed"
  | .unknown => "unknown"
  | .compensated => "compensated"
  | .drifted => "drifted"

inductive ReconciliationLedgerIntent
  | committed
  | committedUnverified
  | ambiguous
  | failed
  | attempted
  | compensated
  | notCommitted
  deriving DecidableEq

/-- The answers of a provider; an answer about a world may depend on the action that it is asked for. -/
structure ReconciliationProvider where
  resolveWorld : Identifier → Hash → Except JsError (Option String)
  read : Identifier → String → Except JsError (Option (List String))

structure ReconciliationActionResult where
  tenantId : Identifier
  actionId : Identifier
  actionHash : Hash
  ledgerIntent : ReconciliationLedgerIntent
  providerWorldId : Option String
  providerPresent : Option Bool
  outcome : ReconciliationOutcome
  retrySafe : Bool
  reconciledFromProvider : Bool
  reasons : List String

/-! ## Timelines -/

def entriesAt (timeline : List LedgerEntry) (stage : LedgerStage) : List LedgerEntry :=
  timeline.filter (·.stage = stage)

def lastEntry (timeline : List LedgerEntry) (stage : LedgerStage) : Option LedgerEntry :=
  (entriesAt timeline stage).getLast?

def hasStatus (text : String) (entry : LedgerEntry) : Bool := match entry.data.get "status" with
  | some (.string s) => s.val == text
  | _ => false

def classifyIntent (timeline : List LedgerEntry) : ReconciliationLedgerIntent :=
  if (lastEntry timeline .compensation).any (hasStatus "attempted") then .compensated
  else if entriesAt timeline .providerReceipt ≠ [] then
    if (lastEntry timeline .verification).any (hasStatus "verified") then .committed else .committedUnverified
  else match lastEntry timeline .executionAttempt with
    | some attempt =>
      if hasStatus "ambiguous" attempt then .ambiguous
      else if hasStatus "failed" attempt then .failed
      else .attempted
    | none => .notCommitted

structure Decision where
  outcome : ReconciliationOutcome
  retrySafe : Bool
  reconciledFromProvider : Bool

def decideOutcome : ReconciliationLedgerIntent → Option Bool → Decision
  | .committed, some true => ⟨.committed, false, false⟩
  | .committed, some false => ⟨.drifted, false, false⟩
  | .committed, none => ⟨.unknown, false, false⟩
  | .notCommitted, some true => ⟨.drifted, false, false⟩
  | .notCommitted, some false => ⟨.notCommitted, true, false⟩
  | .notCommitted, none => ⟨.unknown, false, false⟩
  | .compensated, _ => ⟨.compensated, false, false⟩
  -- committed_unverified, ambiguous, failed, attempted
  | _, some true => ⟨.committed, false, true⟩
  | _, _ => ⟨.unknown, false, false⟩

def intentReasons : ReconciliationLedgerIntent → List String
  | .committed => ["ledger shows a verified provider receipt"]
  | .committedUnverified => ["ledger records a provider receipt without a verified proof"]
  | .ambiguous => ["ledger records an ambiguous execution outcome"]
  | .failed => ["ledger records a failed execution outcome"]
  | .attempted => ["ledger records an execution attempt without a receipt"]
  | .notCommitted => ["ledger never reached the provider"]
  | .compensated => ["ledger records an attempted compensation"]

def reasonsOf (intent : ReconciliationLedgerIntent) (providerPresent : Option Bool) : List String :=
  let decided := decideOutcome intent providerPresent
  intentReasons intent ++
    (if providerPresent = none then ["provider state could not be inspected for this action"] else []) ++
    (if decided.reconciledFromProvider then
      ["ledger outcome was incomplete; provider evidence confirms the commitment"] else []) ++
    if decided.outcome = .drifted then
      [if providerPresent = some true then "provider has a receipt the ledger does not record"
        else "ledger records a commitment the provider does not confirm"]
    else []

/-- Whether the world of an action has a receipt of it, when there is a world to ask about. -/
def inspectWorld (provider : ReconciliationProvider) (actionId : Identifier) :
    Option String → Except JsError (Option Bool)
  | none => .ok none
  | some worldId => do
    let world ← provider.read actionId worldId
    return some (world.any fun receipts => receipts.contains actionId.val)

def classify (provider : ReconciliationProvider) (tenantId actionId : Identifier) (first : LedgerEntry)
    (rest : List LedgerEntry) : Except JsError ReconciliationActionResult := do
  let intent := classifyIntent (first :: rest)
  let worldId ← provider.resolveWorld actionId first.actionHash
  let providerPresent ← inspectWorld provider actionId worldId
  let decided := decideOutcome intent providerPresent
  return {
    tenantId, actionId
    actionHash := first.actionHash
    ledgerIntent := intent
    providerWorldId := worldId
    providerPresent
    outcome := decided.outcome
    retrySafe := decided.retrySafe
    reconciledFromProvider := decided.reconciledFromProvider
    reasons := reasonsOf intent providerPresent }

def isGovernance (actionId : Identifier) : Bool := "governance-".toList.isPrefixOf actionId.val.toList

def objectPrototype : List String :=
  ["__defineGetter__", "__defineSetter__", "__lookupGetter__", "__lookupSetter__", "__proto__", "constructor",
   "hasOwnProperty", "isPrototypeOf", "propertyIsEnumerable", "toLocaleString", "toString", "valueOf"]

structure Group where
  actionId : Identifier
  first : LedgerEntry
  rest : List LedgerEntry

def pushEntry (entry : LedgerEntry) : List Group → List Group
  | [] => [⟨entry.actionId, entry, []⟩]
  | group :: groups =>
    if group.actionId = entry.actionId then { group with rest := group.rest ++ [entry] } :: groups
    else group :: pushEntry entry groups

/-- The groups are members of a plain object: a name that it inherits has a value that is no array. -/
def groupByAction (groups : List Group) : List LedgerEntry → Except JsError (List Group)
  | [] => .ok groups
  | entry :: rest =>
    if isGovernance entry.actionId then groupByAction groups rest
    else if objectPrototype.contains entry.actionId.val then
      .error ⟨"TypeError", "(intermediate value).push is not a function", none⟩
    else groupByAction (pushEntry entry groups) rest

def countOutcomes (results : List ReconciliationActionResult) (outcome : ReconciliationOutcome) : Nat :=
  results.countP (·.outcome = outcome)

/-! ## Findings -/

inductive FindingClassification
  | drifted
  | unknown
  deriving DecidableEq

def FindingClassification.text : FindingClassification → String
  | .drifted => "drifted"
  | .unknown => "unknown"

structure Resolution where
  resolvedAt : Timestamp
  resolvedBy : Identifier
  reason : Text 300
  evidenceRef : Option (Text 128)

structure ReconciliationFinding where
  findingId : Identifier
  tenantId : Identifier
  actionId : Identifier
  actionHash : Hash
  classification : FindingClassification
  detail : Text 600
  detectedAt : Timestamp
  resolution : Option Resolution

structure LastRun where
  runId : Identifier
  ranAt : Timestamp
  counts : ReconciliationOutcome → Nat

structure ReconciliationState where
  lastRun : Option LastRun
  findings : List ReconciliationFinding

def Resolution.toJson (resolution : Resolution) : Json :=
  .object ([("resolvedAt", .string resolution.resolvedAt.val), ("resolvedBy", .string resolution.resolvedBy.val),
    ("reason", .string resolution.reason.val)] ++
    Json.optional "evidenceRef" (resolution.evidenceRef.map fun text => .string text.val))

def ReconciliationFinding.toJson (finding : ReconciliationFinding) : Json :=
  .object ([("schemaVersion", .number 1), ("kind", .string "ghostapi.reconciliation-finding"),
    ("findingId", .string finding.findingId.val), ("tenantId", .string finding.tenantId.val),
    ("actionId", .string finding.actionId.val), ("actionHash", .string finding.actionHash.val),
    ("classification", .string finding.classification.text), ("detail", .string finding.detail.val),
    ("detectedAt", .string finding.detectedAt.val),
    ("status", .string (if finding.resolution.isSome then "resolved" else "open"))] ++
    Json.optional "resolution" (finding.resolution.map Resolution.toJson))

def LastRun.toJson (run : LastRun) : Json :=
  .object [("runId", .string run.runId.val), ("ranAt", .string run.ranAt.val),
    ("counts", .object (ReconciliationOutcome.all.map fun outcome => (outcome.text, .number (run.counts outcome))))]

def ReconciliationState.toJson (state : ReconciliationState) : Json :=
  .object [("schemaVersion", .number 1), ("kind", .string "ghostapi.reconciliation"),
    ("lastRun", match state.lastRun with
      | some run => run.toJson
      | none => .null),
    ("findings", .array (state.findings.map ReconciliationFinding.toJson))]

def validateState (state : ReconciliationState) : Except JsError ReconciliationState := do
  atMost refuse state.findings "Reconciliation findings" MAX_FINDINGS
  unique refuse (state.findings.map (·.findingId.val)) "Reconciliation finding ids"
  return state

def format : StoreFormat ReconciliationState where
  empty := ⟨none, []⟩
  toJson := ReconciliationState.toJson
  maxBytes := MAX_STORE_BYTES
  validate := validateState
  oversized := refuse "Reconciliation store exceeds its size limit."
  invalidClock := refuse "Reconciliation clock is invalid."

/-- A name with the first 32 characters of a UUID without its hyphens. -/
def uuidName (before uuid : String) : String :=
  before ++ String.ofList ((uuid.toList.filter (· ≠ '-')).take 32)

def ReconciliationActionResult.classification (result : ReconciliationActionResult) : Option FindingClassification :=
  match result.outcome with
  | .drifted => some .drifted
  | .unknown => some .unknown
  | _ => none

def makeFinding (result : ReconciliationActionResult) (classification : FindingClassification) (now : Int)
    (uuid : String) : Except JsError ReconciliationFinding := do
  return {
    findingId := ← identifier refuse (.string (uuidName "finding-" uuid)) "Reconciliation finding id"
    tenantId := result.tenantId
    actionId := result.actionId
    actionHash := result.actionHash
    classification
    detail := ← text refuse (.string (String.intercalate "; " result.reasons)) "Reconciliation finding detail" 600
    detectedAt := ← timestamp refuse (.string (Date.toISOString now)) "Reconciliation detection time"
    resolution := none }

def isOpen (finding : ReconciliationFinding) : Bool := finding.resolution.isNone

/-- The findings with those that the results open, and how many these are. -/
def openFindings (now : Int) (uuid : Nat → String) : List ReconciliationActionResult → List ReconciliationFinding →
    Except JsError (List ReconciliationFinding × Nat)
  | [], findings => .ok (findings, 0)
  | result :: rest, findings => match result.classification with
    | none => openFindings now uuid rest findings
    | some classification =>
      if findings.any (fun finding => finding.actionHash = result.actionHash && isOpen finding) then
        openFindings now uuid rest findings
      else do
        failIf (MAX_FINDINGS ≤ findings.length) (refuse "Reconciliation findings limit was reached.")
        let finding ← makeFinding result classification now (uuid 0)
        let (findings, opened) ← openFindings now (fun n => uuid (n + 1)) rest (findings ++ [finding])
        return (findings, opened + 1)

/-! ## A run -/

inductive ReconciliationOperatorPermission
  | manage
  | inspect
  deriving DecidableEq

def ReconciliationOperatorPermission.text : ReconciliationOperatorPermission → String
  | .manage => "reconciliation.manage"
  | .inspect => "reconciliation.inspect"

structure ReconciliationOperator where
  id : Identifier
  principalId : Identifier
  permissions : List ReconciliationOperatorPermission

def validateOperator (value : JsValue) : Except JsError ReconciliationOperator := do
  let operator ← object refuse value "Reconciliation operator is invalid."
  exactKeys refuse operator ["id", "principalId", "permissions"] "Reconciliation operator" []
  let items ← array refuse (operator.get "permissions") "Reconciliation operator permissions" 8
  let permissions ← items.mapM fun item =>
    enumerated refuse [.manage, .inspect] ReconciliationOperatorPermission.text item
      "Reconciliation operator permission is invalid."
  unique refuse (permissions.map (·.text)) "Reconciliation operator permissions"
  return {
    id := ← identifier refuse (operator.get "id") "Reconciliation operator id"
    principalId := ← identifier refuse (operator.get "principalId") "Reconciliation operator principal id"
    permissions }

structure ReconciliationReport where
  runId : String
  tenantId : Identifier
  ranAt : Int
  actions : List ReconciliationActionResult
  counts : ReconciliationOutcome → Nat
  findingsOpened : Nat

structure Inputs where
  authenticate : Except JsError JsValue
  capability : JsValue
  provider : ReconciliationProvider
  now : Option Int
  ledgerNow : Option Int
  uuid : Nat → String

/-- The results for the groups in the order of their names. -/
def classifyAll (provider : ReconciliationProvider) (tenantId : Identifier) (groups : List Group) :
    Except JsError (List ReconciliationActionResult) :=
  (groups.mergeSort fun a b => Json.keyLe a.actionId.val b.actionId.val).mapM fun group =>
    classify provider tenantId group.actionId group.first group.rest

def reconcileOp (runId : String) (now : Int) (results : List ReconciliationActionResult) (uuid : Nat → String) :
    Mutation ReconciliationState JsError Nat := do
  let runId ← identifier refuse (.string runId) "Reconciliation run id"
  let ranAt ← timestamp refuse (.string (Date.toISOString now)) "Reconciliation run time"
  modify fun state => { state with lastRun := some ⟨runId, ranAt, countOutcomes results⟩ }
  let (findings, opened) ← openFindings now uuid results (← get).findings
  modify fun state => { state with findings }
  return opened

def exportLedger (ledger : Ledger.Options) (inputs : Inputs) (ledgerStore : Ledger.Store) : Except JsError LedgerExport :=
  match Ledger.exportTenant ledger inputs.capability inputs.ledgerNow ledgerStore with
  | .ok exported => .ok exported
  | .error e => .error (refuse
      ("Reconciliation is blocked because the tenant ledger failed integrity verification: " ++ e.message))

def runReconciliation (ledger : Ledger.Options) (inputs : Inputs) (ledgerStore : Ledger.Store)
    (store : Option ReconciliationState) : Except JsError (ReconciliationReport × ReconciliationState) := do
  let operator ← validateOperator (← inputs.authenticate)
  failIf (ReconciliationOperatorPermission.manage ∉ operator.permissions)
    (refuse "Reconciliation operator lacks required permission: reconciliation.manage.")
  let runId := uuidName "recon-" (inputs.uuid 0)
  let now ← format.timestamp inputs.now
  let exported ← exportLedger ledger inputs ledgerStore
  let groups ← groupByAction [] exported.entries
  let results ← classifyAll inputs.provider exported.tenantId groups
  let (opened, state) ← format.update (reconcileOp runId now results fun n => inputs.uuid (n + 1)) store
  return ({
    runId
    tenantId := exported.tenantId
    ranAt := now
    actions := results
    counts := countOutcomes results
    findingsOpened := opened }, state)

end GhostApi.Reliability
