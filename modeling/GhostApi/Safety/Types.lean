import GhostApi.Validation

/-!
# Records of the safety controller and their input validators

Actions, scopes, budgets, circuits, outcomes and emergency operators, each
with the validator that turns an untyped argument into the record.
-/

namespace GhostApi.Safety

open Js Validation

def MAX_STORE_BYTES : Nat := 1024 * 1024

def MAX_CONTROLS : Nat := 1000

def MAX_LEDGER : Nat := 10000

def MAX_QUEUE : Nat := 100

def MAX_DEAD_LETTERS : Nat := 1000

def MAX_AUDIT : Nat := 10000

def DEFAULT_LEASE_TTL_MS : Int := 60000

def KILL_SWITCH_ERROR_CODE : String := "SAFETY_KILL_SWITCH"

def MAX_LATENCY_MS : Nat := 24 * 60 * 60 * 1000

def SafetyControllerError (message : String) : JsError := ⟨"SafetyControllerError", message, none⟩

inductive ScopeKind
  | organization
  | project
  | environment
  | agent
  | workload
  | provider
  | operation
  | riskClass
  deriving DecidableEq

def ScopeKind.all : List ScopeKind :=
  [.organization, .project, .environment, .agent, .workload, .provider, .operation, .riskClass]

def ScopeKind.text : ScopeKind → String
  | .organization => "organization"
  | .project => "project"
  | .environment => "environment"
  | .agent => "agent"
  | .workload => "workload"
  | .provider => "provider"
  | .operation => "operation"
  | .riskClass => "risk_class"

inductive SafetyScope
  | global
  | keyed (kind : ScopeKind) (id : Identifier)
  deriving DecidableEq

inductive RiskClass
  | read
  | write
  | moneyMovement
  | externalCommunication
  | delete
  | deploy
  deriving DecidableEq

def RiskClass.all : List RiskClass :=
  [.read, .write, .moneyMovement, .externalCommunication, .delete, .deploy]

def RiskClass.text : RiskClass → String
  | .read => "read"
  | .write => "write"
  | .moneyMovement => "money_movement"
  | .externalCommunication => "external_communication"
  | .delete => "delete"
  | .deploy => "deploy"

inductive CostCategory
  | monetaryAmountMinor
  | requests
  | messages
  | mutations
  | deletes
  | tokenCost
  deriving DecidableEq

def CostCategory.all : List CostCategory :=
  [.monetaryAmountMinor, .requests, .messages, .mutations, .deletes, .tokenCost]

def CostCategory.text : CostCategory → String
  | .monetaryAmountMinor => "monetaryAmountMinor"
  | .requests => "requests"
  | .messages => "messages"
  | .mutations => "mutations"
  | .deletes => "deletes"
  | .tokenCost => "tokenCost"

abbrev Amount := Bounded MAX_SAFE_INTEGER

theorem zero_isAmount : 0 ≤ MAX_SAFE_INTEGER := Nat.zero_le _

theorem one_isAmount : 1 ≤ MAX_SAFE_INTEGER := by decide

structure SafetyCosts where
  monetaryAmountMinor : Amount
  requests : Amount
  messages : Amount
  mutations : Amount
  deletes : Amount
  tokenCost : Amount
  deriving DecidableEq

def SafetyCosts.get (costs : SafetyCosts) : CostCategory → Nat
  | .monetaryAmountMinor => costs.monetaryAmountMinor.val
  | .requests => costs.requests.val
  | .messages => costs.messages.val
  | .mutations => costs.mutations.val
  | .deletes => costs.deletes.val
  | .tokenCost => costs.tokenCost.val

structure SafetyAction where
  organizationId : Identifier
  projectId : Identifier
  environment : Identifier
  actorId : Identifier
  workloadId : Identifier
  provider : Identifier
  operation : Identifier
  riskClass : RiskClass
  idempotencyKey : Identifier
  actionHash : Hash
  costs : SafetyCosts
  deriving DecidableEq

structure SafetyBudgetLimits where
  monetaryAmountMinor : Option Amount
  requests : Option Amount
  messages : Option Amount
  mutations : Option Amount
  deletes : Option Amount
  tokenCost : Option Amount
  concurrency : Option Amount
  velocity : Option Amount
  deriving DecidableEq

def SafetyBudgetLimits.get (limits : SafetyBudgetLimits) : CostCategory → Option Amount
  | .monetaryAmountMinor => limits.monetaryAmountMinor
  | .requests => limits.requests
  | .messages => limits.messages
  | .mutations => limits.mutations
  | .deletes => limits.deletes
  | .tokenCost => limits.tokenCost

structure SafetyBudget where
  id : Identifier
  scope : SafetyScope
  windowMs : Positive MAX_MS
  velocityWindowMs : Positive MAX_MS
  limits : SafetyBudgetLimits
  deriving DecidableEq

/-- An open circuit keeps the time and the reason of its opening. -/
inductive CircuitState
  | closed
  | opened (openedAt : String) (reason : Text 200)
  deriving DecidableEq

structure SafetyCircuit where
  id : Identifier
  scope : SafetyScope
  windowMs : Positive MAX_MS
  minimumSamples : Positive MAX_LEDGER
  maxFailureRateBps : Bounded 10000
  maxPolicyViolations : Bounded MAX_LEDGER
  maxLatencyMs : Bounded MAX_LATENCY_MS
  maxReconciliationMismatches : Bounded MAX_LEDGER
  state : CircuitState
  deriving DecidableEq

structure SafetyOutcome where
  success : Bool
  policyViolation : Bool
  reconciliationMismatch : Bool
  latencyMs : Bounded MAX_LATENCY_MS
  reason : Option (Text 200)
  deriving DecidableEq

inductive SafetyOperatorPermission
  | stop
  | reenable
  | configure
  | inspect
  deriving DecidableEq

def SafetyOperatorPermission.all : List SafetyOperatorPermission := [.stop, .reenable, .configure, .inspect]

def SafetyOperatorPermission.text : SafetyOperatorPermission → String
  | .stop => "safety.stop"
  | .reenable => "safety.reenable"
  | .configure => "safety.configure"
  | .inspect => "safety.inspect"

structure SafetyOperator where
  id : Identifier
  principalId : Identifier
  permissions : List SafetyOperatorPermission
  deriving DecidableEq

/-! ## Validators -/

abbrev fail : String → JsError := SafetyControllerError

def validateScope (value : JsValue) : Except JsError SafetyScope := do
  let scope ← object fail value "Safety scope is invalid."
  exactKeys fail scope ["kind", "id"] "Safety scope" ["id"]
  let id := scope.get "id"
  match scope.get "kind" with
  | .string "global" =>
    if id.isUndefined then return .global
    else throw (fail "Global safety scope cannot have an id.")
  | kind =>
    let kind ← enumerated fail ScopeKind.all ScopeKind.text kind "Safety scope kind is invalid."
    if id.isUndefined then throw (fail "Scoped safety control requires an id.")
    return .keyed kind (← identifier fail id "Safety scope id")

def costKeys : List String := CostCategory.all.map CostCategory.text

def validateCosts (costs : Fields) : Except JsError SafetyCosts := do
  let amount (key label : String) := nonNegative fail (costs.get key) label MAX_SAFE_INTEGER
  return {
    monetaryAmountMinor := ← amount "monetaryAmountMinor" "Safety monetary amount"
    requests := ← amount "requests" "Safety request count"
    messages := ← amount "messages" "Safety message count"
    mutations := ← amount "mutations" "Safety mutation count"
    deletes := ← amount "deletes" "Safety delete count"
    tokenCost := ← amount "tokenCost" "Safety token cost" }

def validateAction (value : JsValue) : Except JsError SafetyAction := do
  let action ← object fail value "Safety action is invalid."
  exactKeys fail action
    ["organizationId", "projectId", "environment", "actorId", "workloadId", "provider", "operation",
     "riskClass", "idempotencyKey", "actionHash", "costs"] "Safety action" []
  let riskClass ← enumerated fail RiskClass.all RiskClass.text (action.get "riskClass")
    "Safety action risk class is invalid."
  let field (key label : String) := identifier fail (action.get key) label
  let costs ← object fail (action.get "costs") "Safety action costs are invalid."
  exactKeys fail costs costKeys "Safety action costs" []
  return {
    organizationId := ← field "organizationId" "Safety organization id"
    projectId := ← field "projectId" "Safety project id"
    environment := ← field "environment" "Safety environment"
    actorId := ← field "actorId" "Safety actor id"
    workloadId := ← field "workloadId" "Safety workload id"
    provider := ← field "provider" "Safety provider"
    operation := ← field "operation" "Safety operation"
    riskClass
    idempotencyKey := ← field "idempotencyKey" "Safety idempotency key"
    actionHash := ← hash fail (action.get "actionHash") "Safety action hash"
    costs := ← validateCosts costs }

def limitKeys : List String := costKeys ++ ["concurrency", "velocity"]

def validateBudget (value : JsValue) : Except JsError SafetyBudget := do
  let budget ← object fail value "Safety budget is invalid."
  exactKeys fail budget ["id", "scope", "windowMs", "velocityWindowMs", "limits"] "Safety budget" []
  let limits ← object fail (budget.get "limits") "Safety budget limits are invalid."
  exactKeys fail limits limitKeys "Safety budget limits" limitKeys
  let limit (key : String) : Except JsError (Option Amount) :=
    if (limits.get key).isUndefined then .ok none
    else some <$> nonNegative fail (limits.get key) ("Safety budget " ++ key) MAX_SAFE_INTEGER
  let parsed : SafetyBudgetLimits := {
    monetaryAmountMinor := ← limit "monetaryAmountMinor"
    requests := ← limit "requests"
    messages := ← limit "messages"
    mutations := ← limit "mutations"
    deletes := ← limit "deletes"
    tokenCost := ← limit "tokenCost"
    concurrency := ← limit "concurrency"
    velocity := ← limit "velocity" }
  if parsed = ⟨none, none, none, none, none, none, none, none⟩ then
    throw (fail "Safety budget requires at least one limit.")
  return {
    id := ← identifier fail (budget.get "id") "Safety budget id"
    scope := ← validateScope (budget.get "scope")
    windowMs := ← boundedMs fail (budget.get "windowMs") "Safety budget window"
    velocityWindowMs := ← boundedMs fail (budget.get "velocityWindowMs") "Safety velocity window"
    limits := parsed }

def validateCircuit (value : JsValue) : Except JsError SafetyCircuit := do
  let circuit ← object fail value "Safety circuit is invalid."
  exactKeys fail circuit
    ["id", "scope", "windowMs", "minimumSamples", "maxFailureRateBps", "maxPolicyViolations", "maxLatencyMs",
     "maxReconciliationMismatches", "state", "openedAt", "reason"] "Safety circuit" ["openedAt", "reason"]
  let opened ← match circuit.get "state" with
    | .string "closed" => pure false
    | .string "open" => pure true
    | _ => throw (fail "Safety circuit state is invalid.")
  let result : SafetyCircuit := {
    id := ← identifier fail (circuit.get "id") "Safety circuit id"
    scope := ← validateScope (circuit.get "scope")
    windowMs := ← boundedMs fail (circuit.get "windowMs") "Safety circuit window"
    minimumSamples := ←
      positive fail (circuit.get "minimumSamples") "Safety circuit minimum samples" MAX_LEDGER
    maxFailureRateBps := ← bps fail (circuit.get "maxFailureRateBps") "Safety circuit failure rate"
    maxPolicyViolations := ←
      nonNegative fail (circuit.get "maxPolicyViolations") "Safety circuit policy violations" MAX_LEDGER
    maxLatencyMs := ← nonNegative fail (circuit.get "maxLatencyMs") "Safety circuit latency" MAX_LATENCY_MS
    maxReconciliationMismatches := ← nonNegative fail (circuit.get "maxReconciliationMismatches")
      "Safety circuit reconciliation mismatches" MAX_LEDGER
    state := .closed }
  if opened then
    if (circuit.get "openedAt").isUndefined || (circuit.get "reason").isUndefined then
      throw (fail "Open safety circuit requires audit metadata.")
    let openedAt ← timestamp fail (circuit.get "openedAt") "Safety circuit open time"
    let reason ← text fail (circuit.get "reason") "Safety circuit reason" 200
    return { result with state := .opened openedAt.val reason }
  else return result

def validateOutcome (value : JsValue) : Except JsError SafetyOutcome := do
  let outcome ← object fail value "Safety action outcome is invalid."
  exactKeys fail outcome ["success", "policyViolation", "reconciliationMismatch", "latencyMs", "reason"]
    "Safety action outcome" ["policyViolation", "reconciliationMismatch", "reason"]
  let flag (key : String) : Except JsError Bool :=
    if (outcome.get key).isUndefined then .ok false
    else boolean fail (outcome.get key) "Safety action outcome flags are invalid."
  let success ← boolean fail (outcome.get "success") "Safety action outcome flags are invalid."
  let policyViolation ← flag "policyViolation"
  let reconciliationMismatch ← flag "reconciliationMismatch"
  let latencyMs ← nonNegative fail (outcome.get "latencyMs") "Safety action latency" MAX_LATENCY_MS
  let reason : Option (Text 200) ←
    if (outcome.get "reason").isUndefined then pure none
    else some <$> text fail (outcome.get "reason") "Safety action outcome reason" 200
  return { success, policyViolation, reconciliationMismatch, latencyMs, reason }

def validateOperator (value : JsValue) : Except JsError SafetyOperator := do
  let operator ← object fail value "Emergency operator is invalid."
  exactKeys fail operator ["id", "principalId", "permissions"] "Emergency operator" []
  let items ← array fail (operator.get "permissions") "Emergency operator permissions" 8
  let permissions ← items.mapM fun permission =>
    enumerated fail SafetyOperatorPermission.all SafetyOperatorPermission.text permission
      "Emergency operator permission is invalid."
  unique fail (permissions.map SafetyOperatorPermission.text) "Emergency operator permissions"
  return {
    id := ← identifier fail (operator.get "id") "Emergency operator id"
    principalId := ← identifier fail (operator.get "principalId") "Emergency operator principal id"
    permissions }

/-! ## Scopes and keys -/

def scopeValue (action : SafetyAction) : ScopeKind → String
  | .organization => action.organizationId.val
  | .project => action.projectId.val
  | .environment => action.environment.val
  | .agent => action.actorId.val
  | .workload => action.workloadId.val
  | .provider => action.provider.val
  | .operation => action.operation.val
  | .riskClass => action.riskClass.text

def scopeMatches (scope : SafetyScope) (action : SafetyAction) : Bool := match scope with
  | .global => true
  | .keyed kind id => id.val == scopeValue action kind

def scopeKey : SafetyScope → String
  | .global => "global"
  | .keyed kind id => kind.text ++ ":" ++ id.val

def sameScope (left right : SafetyScope) : Bool := left == right

def ledgerKey (action : SafetyAction) : String := action.idempotencyKey.val ++ ":" ++ action.actionHash.val

end GhostApi.Safety
