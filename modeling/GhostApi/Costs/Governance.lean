import GhostApi.Reliability.Reconciliation

/-!
# Cost governance

Records of what actions cost, budgets over sliding windows, and alerts. The
report adds up the records of one window for all budgets; the alerts are
derived from all records that a budget can reach. The forecast of a report is
left out.
-/

namespace GhostApi.Costs

open Js Validation Effect Effect.Mutation Storage Transition
open Reliability (uuidName)

def MAX_STORE_BYTES : Nat := 4 * 1024 * 1024

def MAX_RECORDS : Nat := 10000

def MAX_BUDGETS : Nat := 32

def MAX_ALERTS : Nat := 100

def MAX_WINDOW_MS : Nat := 90 * 24 * 60 * 60 * 1000

def HOUR_MS : Nat := 60 * 60 * 1000

def CostGovernanceError (message : String) : JsError := ⟨"CostGovernanceError", message, none⟩

abbrev refuse : String → JsError := CostGovernanceError

/-! ## Records -/

inductive CostDimension
  | agent
  | project
  | provider
  | actionClass
  | workflow
  deriving DecidableEq

def CostDimension.all : List CostDimension := [.agent, .project, .provider, .actionClass, .workflow]

def CostDimension.text : CostDimension → String
  | .agent => "agent"
  | .project => "project"
  | .provider => "provider"
  | .actionClass => "action_class"
  | .workflow => "workflow"

inductive CostAmountKey
  | monetaryAmountMinor
  | requests
  | messages
  | mutations
  | deletes
  | tokenCost
  deriving DecidableEq

def CostAmountKey.all : List CostAmountKey :=
  [.monetaryAmountMinor, .requests, .messages, .mutations, .deletes, .tokenCost]

def CostAmountKey.text : CostAmountKey → String
  | .monetaryAmountMinor => "monetaryAmountMinor"
  | .requests => "requests"
  | .messages => "messages"
  | .mutations => "mutations"
  | .deletes => "deletes"
  | .tokenCost => "tokenCost"

abbrev Amount := Bounded MAX_SAFE_INTEGER

abbrev RecordedAmounts := CostAmountKey → Amount

abbrev CostAmounts := CostAmountKey → Nat

structure CostAttribution where
  agentId : Identifier
  projectId : Identifier
  provider : Identifier
  actionClass : Identifier
  workflowId : Identifier

def CostAttribution.get (attribution : CostAttribution) : CostDimension → Identifier
  | .agent => attribution.agentId
  | .project => attribution.projectId
  | .provider => attribution.provider
  | .actionClass => attribution.actionClass
  | .workflow => attribution.workflowId

structure CostRecord where
  recordId : String
  tenantId : Identifier
  runId : Identifier
  actionId : Identifier
  recordedAt : Int
  attribution : CostAttribution
  amounts : RecordedAmounts

/-- A window of at least one hour and at most 90 days. -/
abbrev WindowMs := { n : Nat // HOUR_MS ≤ n ∧ n ≤ MAX_WINDOW_MS }

structure CostScope where
  dimension : CostDimension
  value : Identifier

structure CostLimits where
  get : CostAmountKey → Option Amount
  limited : CostAmountKey.all.any (fun key => (get key).isSome) = true

structure CostBudget where
  id : Identifier
  scope : CostScope
  windowMs : WindowMs
  limits : CostLimits
  alertOnExceed : Bool

structure Exceeded where
  key : CostAmountKey
  limit : Amount
  total : Nat

structure Acknowledgement where
  acknowledgedBy : Identifier
  acknowledgedAt : Int

structure CostAlert where
  id : String
  budgetId : Identifier
  scope : CostScope
  windowMs : WindowMs
  windowStart : Int
  windowEnd : Int
  exceeded : List Exceeded
  created : Int
  acknowledgement : Option Acknowledgement

def isOpen (alert : CostAlert) : Bool := alert.acknowledgement.isNone

structure CostStoreState where
  records : List CostRecord
  budgets : List CostBudget
  alerts : List CostAlert

def emptyState : CostStoreState := ⟨[], [], []⟩

/-! ## Stored form -/

def time (ms : Int) : Json := .string (Date.toISOString ms)

def CostAttribution.toJson (attribution : CostAttribution) : Json :=
  .object [("agentId", .string attribution.agentId.val), ("projectId", .string attribution.projectId.val),
    ("provider", .string attribution.provider.val), ("actionClass", .string attribution.actionClass.val),
    ("workflowId", .string attribution.workflowId.val)]

def amountsJson (amounts : RecordedAmounts) : Json :=
  .object (CostAmountKey.all.map fun key => (key.text, .number (amounts key).val))

def CostRecord.toJson (record : CostRecord) : Json :=
  .object [("schemaVersion", .number 1), ("kind", .string "ghostapi.cost-record"), ("recordId", .string record.recordId),
    ("tenantId", .string record.tenantId.val), ("runId", .string record.runId.val),
    ("actionId", .string record.actionId.val), ("recordedAt", time record.recordedAt),
    ("attribution", record.attribution.toJson), ("amounts", amountsJson record.amounts)]

def CostScope.toJson (scope : CostScope) : Json :=
  .object [("dimension", .string scope.dimension.text), ("value", .string scope.value.val)]

def CostLimits.toJson (limits : CostLimits) : Json :=
  .object (CostAmountKey.all.flatMap fun key =>
    Json.optional key.text ((limits.get key).map fun limit => .number limit.val))

def CostBudget.toJson (budget : CostBudget) : Json :=
  .object [("id", .string budget.id.val), ("scope", budget.scope.toJson), ("windowMs", .number budget.windowMs.val),
    ("limits", budget.limits.toJson), ("alertOnExceed", .bool budget.alertOnExceed)]

def Exceeded.toJson (entry : Exceeded) : Json :=
  .object [("key", .string entry.key.text), ("limit", .number entry.limit.val), ("total", .number entry.total)]

def CostAlert.toJson (alert : CostAlert) : Json :=
  .object ([("id", .string alert.id), ("budgetId", .string alert.budgetId.val), ("scope", alert.scope.toJson),
    ("windowMs", .number alert.windowMs.val), ("windowStart", time alert.windowStart),
    ("windowEnd", time alert.windowEnd), ("exceeded", .array (alert.exceeded.map Exceeded.toJson)),
    ("created", time alert.created), ("status", .string (if isOpen alert then "open" else "acknowledged"))] ++
    match alert.acknowledgement with
    | none => []
    | some acknowledgement => [("acknowledgedBy", .string acknowledgement.acknowledgedBy.val),
        ("acknowledgedAt", time acknowledgement.acknowledgedAt)])

def CostStoreState.toJson (state : CostStoreState) : Json :=
  .object [("schemaVersion", .number 1), ("kind", .string "ghostapi.costs"),
    ("records", .array (state.records.map CostRecord.toJson)),
    ("budgets", .array (state.budgets.map CostBudget.toJson)),
    ("alerts", .array (state.alerts.map CostAlert.toJson))]

/-! ## Validators of a state -/

def validateRecord (record : CostRecord) : Except JsError Unit := do
  checkIdentifier refuse record.recordId "Cost record id"
  stamp refuse record.recordedAt "Cost record time"

def validateAlert (alert : CostAlert) : Except JsError Unit := do
  atMost refuse alert.exceeded "Cost alert exceeded entries" CostAmountKey.all.length
  alert.exceeded.forM fun entry => failIf (MAX_SAFE_INTEGER < entry.total) (refuse "Cost alert total is invalid.")
  checkIdentifier refuse alert.id "Cost alert id"
  stamp refuse alert.windowStart "Cost alert window start"
  stamp refuse alert.windowEnd "Cost alert window end"
  stamp refuse alert.created "Cost alert creation time"
  alert.acknowledgement.toList.forM fun acknowledgement =>
    stamp refuse acknowledgement.acknowledgedAt "Cost alert acknowledgement time"

def validateState (state : CostStoreState) : Except JsError CostStoreState := do
  atMost refuse state.records "Cost records" MAX_RECORDS
  state.records.forM validateRecord
  unique refuse (state.records.map (·.recordId)) "Cost record ids"
  atMost refuse state.budgets "Cost budgets" MAX_BUDGETS
  unique refuse (state.budgets.map (·.id.val)) "Cost budget ids"
  atMost refuse state.alerts "Cost alerts" MAX_ALERTS
  state.alerts.forM validateAlert
  unique refuse (state.alerts.map (·.id)) "Cost alert ids"
  return state

def format : StoreFormat CostStoreState where
  empty := emptyState
  toJson := CostStoreState.toJson
  maxBytes := MAX_STORE_BYTES
  validate := validateState
  oversized := refuse "Cost store exceeds its size limit."
  invalidClock := refuse "Cost governance clock is invalid."

/-! ## Validators of input -/

def validateAttribution (value : JsValue) : Except JsError CostAttribution := do
  let attribution ← object refuse value "Cost attribution is invalid."
  exactKeys refuse attribution ["agentId", "projectId", "provider", "actionClass", "workflowId"] "Cost attribution" []
  return {
    agentId := ← identifier refuse (attribution.get "agentId") "Cost agent id"
    projectId := ← identifier refuse (attribution.get "projectId") "Cost project id"
    provider := ← identifier refuse (attribution.get "provider") "Cost provider"
    actionClass := ← identifier refuse (attribution.get "actionClass") "Cost action class"
    workflowId := ← identifier refuse (attribution.get "workflowId") "Cost workflow id" }

def validateAmounts (value : JsValue) (label : String) : Except JsError RecordedAmounts := do
  let amounts ← object refuse value (label ++ " amounts are invalid.")
  exactKeys refuse amounts (CostAmountKey.all.map CostAmountKey.text) label []
  let monetaryAmountMinor ←
    nonNegative refuse (amounts.get "monetaryAmountMinor") (label ++ " monetary amount") MAX_SAFE_INTEGER
  let requests ← nonNegative refuse (amounts.get "requests") (label ++ " requests") MAX_SAFE_INTEGER
  let messages ← nonNegative refuse (amounts.get "messages") (label ++ " messages") MAX_SAFE_INTEGER
  let mutations ← nonNegative refuse (amounts.get "mutations") (label ++ " mutations") MAX_SAFE_INTEGER
  let deletes ← nonNegative refuse (amounts.get "deletes") (label ++ " deletes") MAX_SAFE_INTEGER
  let tokenCost ← nonNegative refuse (amounts.get "tokenCost") (label ++ " token cost") MAX_SAFE_INTEGER
  return fun
    | .monetaryAmountMinor => monetaryAmountMinor
    | .requests => requests
    | .messages => messages
    | .mutations => mutations
    | .deletes => deletes
    | .tokenCost => tokenCost

def limitOf (limits : Fields) (key : CostAmountKey) : Except JsError (Option Amount) :=
  if (limits.get key.text).isUndefined then .ok none
  else some <$> nonNegative refuse (limits.get key.text) ("Cost budget " ++ key.text) MAX_SAFE_INTEGER

def validateLimits (value : JsValue) : Except JsError CostLimits := do
  let limits ← object refuse value "Cost budget limits are invalid."
  exactKeys refuse limits (CostAmountKey.all.map CostAmountKey.text) "Cost budget limits" []
  let monetaryAmountMinor ← limitOf limits .monetaryAmountMinor
  let requests ← limitOf limits .requests
  let messages ← limitOf limits .messages
  let mutations ← limitOf limits .mutations
  let deletes ← limitOf limits .deletes
  let tokenCost ← limitOf limits .tokenCost
  let parsed : CostAmountKey → Option Amount := fun
    | .monetaryAmountMinor => monetaryAmountMinor
    | .requests => requests
    | .messages => messages
    | .mutations => mutations
    | .deletes => deletes
    | .tokenCost => tokenCost
  if h : CostAmountKey.all.any (fun key => (parsed key).isSome) = true then return ⟨parsed, h⟩
  else throw (refuse "Cost budget requires at least one limit.")

def boundedMs (value : JsValue) (label : String) : Except JsError WindowMs := match value with
  | .number (.integer z) => if h : HOUR_MS ≤ z.toNat ∧ z.toNat ≤ MAX_WINDOW_MS then .ok ⟨z.toNat, h⟩
    else .error (refuse (label ++ " must be between one hour and 90 days."))
  | _ => .error (refuse (label ++ " must be between one hour and 90 days."))

def boundedDays (value : JsValue) (label : String) : Except JsError (Positive 30) := match value with
  | .number (.integer z) => if h : 1 ≤ z.toNat ∧ z.toNat ≤ 30 then .ok ⟨z.toNat, h⟩
    else .error (refuse (label ++ " must be from 1 through 30 days."))
  | _ => .error (refuse (label ++ " must be from 1 through 30 days."))

def validateBudget (value : JsValue) : Except JsError CostBudget := do
  let budget ← object refuse value "Cost budget is invalid."
  exactKeys refuse budget ["id", "scope", "windowMs", "limits", "alertOnExceed"] "Cost budget" []
  let scope ← object refuse (budget.get "scope") "Cost budget scope is invalid."
  exactKeys refuse scope ["dimension", "value"] "Cost budget scope" []
  let dimension ← enumerated refuse CostDimension.all CostDimension.text (scope.get "dimension")
    "Cost budget dimension is invalid."
  let limits ← validateLimits (budget.get "limits")
  let alertOnExceed ← boolean refuse (budget.get "alertOnExceed") "Cost budget alertOnExceed flag is invalid."
  return {
    id := ← identifier refuse (budget.get "id") "Cost budget id"
    scope := ⟨dimension, ← identifier refuse (scope.get "value") "Cost budget scope value"⟩
    windowMs := ← boundedMs (budget.get "windowMs") "Cost budget window"
    limits
    alertOnExceed }

inductive CostOperatorPermission
  | record
  | configure
  | inspect
  | acknowledge
  deriving DecidableEq

def CostOperatorPermission.all : List CostOperatorPermission := [.record, .configure, .inspect, .acknowledge]

def CostOperatorPermission.text : CostOperatorPermission → String
  | .record => "cost.record"
  | .configure => "cost.configure"
  | .inspect => "cost.inspect"
  | .acknowledge => "cost.acknowledge"

structure CostOperator where
  id : Identifier
  principalId : Identifier
  permissions : List CostOperatorPermission
  tenantId : Option Identifier

def validateOperator (value : JsValue) : Except JsError CostOperator := do
  let operator ← object refuse value "Cost operator is invalid."
  exactKeys refuse operator ["id", "principalId", "permissions", "tenantId"] "Cost operator" ["tenantId"]
  let items ← array refuse (operator.get "permissions") "Cost operator permissions" 8
  let permissions ← items.mapM fun item =>
    enumerated refuse CostOperatorPermission.all CostOperatorPermission.text item "Cost operator permission is invalid."
  unique refuse (permissions.map (·.text)) "Cost operator permissions"
  let id ← identifier refuse (operator.get "id") "Cost operator id"
  let principalId ← identifier refuse (operator.get "principalId") "Cost operator principal id"
  let tenantId ← if (operator.get "tenantId").isUndefined then pure none
    else some <$> identifier refuse (operator.get "tenantId") "Cost operator tenant id"
  return ⟨id, principalId, permissions, tenantId⟩

/-- The operator of an identity; authenticate is the answer of the authorizer. -/
def authorize (authenticate : Except JsError JsValue) (permission : CostOperatorPermission) :
    Except JsError CostOperator := do
  let operator ← validateOperator (← authenticate)
  failIf (permission ∉ operator.permissions)
    (refuse ("Cost operator lacks required permission: " ++ permission.text ++ "."))
  return operator

/-! ## Totals -/

def zeroAmounts : CostAmounts := fun _ => 0

def addAmounts (left right : CostAmounts) : CostAmounts := fun key => add (left key) (right key)

def CostRecord.costs (record : CostRecord) : CostAmounts := fun key => (record.amounts key).val

def sumAmounts (values : List CostAmounts) : CostAmounts := values.foldl addAmounts zeroAmounts

inductive CostStatus
  | within
  | exceeded
  deriving DecidableEq

structure CostBudgetEvaluation where
  id : Identifier
  scope : CostScope
  windowMs : WindowMs
  limits : CostLimits
  totals : CostAmounts
  status : CostStatus
  exceeded : List Exceeded

/-- The amounts of a budget that are above their limits. -/
def exceededOf (limits : CostLimits) (totals : CostAmounts) : List Exceeded :=
  CostAmountKey.all.filterMap fun key => match limits.get key with
    | some limit => if limit.val < totals key then some ⟨key, limit, totals key⟩ else none
    | none => none

def CostBudget.counts (budget : CostBudget) (now : Int) (record : CostRecord) : Bool :=
  now - budget.windowMs.val ≤ record.recordedAt && record.attribution.get budget.scope.dimension = budget.scope.value

def evaluateBudget (budget : CostBudget) (records : List CostRecord) (now : Int) : CostBudgetEvaluation :=
  let totals := sumAmounts ((records.filter (budget.counts now)).map CostRecord.costs)
  let exceeded := exceededOf budget.limits totals
  { id := budget.id
    scope := budget.scope
    windowMs := budget.windowMs
    limits := budget.limits
    totals
    status := if exceeded = [] then .within else .exceeded
    exceeded }

def tenantScoped (records : List CostRecord) : Option Identifier → List CostRecord
  | none => records
  | some tenantId => records.filter (·.tenantId = tenantId)

/-- The totals of the records that have a value of a dimension, in the order of their first records. -/
def addTo (value : Identifier) (amounts : CostAmounts) : List (Identifier × CostAmounts) → List (Identifier × CostAmounts)
  | [] => [(value, addAmounts zeroAmounts amounts)]
  | (other, totals) :: rest =>
    if other = value then (other, addAmounts totals amounts) :: rest else (other, totals) :: addTo value amounts rest

def aggregateAttribution (records : List CostRecord) : List (CostDimension × Identifier × CostAmounts) :=
  CostDimension.all.flatMap fun dimension =>
    (records.foldl (fun byValue record => addTo (record.attribution.get dimension) record.costs byValue) []).map
      fun totals => (dimension, totals)

/-! ## Alerts -/

/-- new Date(ms).toISOString() throws outside of the range of dates. -/
def isoTime (ms : Int) : Except JsError Int :=
  if ms.natAbs ≤ 8640000000000000 then .ok ms else .error ⟨"RangeError", "Invalid time value", none⟩

def alertOf (budgetId : Identifier) (alert : CostAlert) : Bool := alert.budgetId = budgetId && isOpen alert

/-- Object.assign on the first item that passes a test. -/
def assignFirst {α : Type} (test : α → Bool) (assign : α → α) : List α → List α
  | [] => []
  | item :: rest => if test item then assign item :: rest else item :: assignFirst test assign rest

/-- Makes room by dropping the first acknowledged alert. -/
def makeRoom (alerts : List CostAlert) : Except JsError (List CostAlert) :=
  if MAX_ALERTS ≤ alerts.length then
    if alerts.any (!isOpen ·) then .ok (alerts.eraseP (!isOpen ·))
    else .error (refuse "Cost alert limit was reached.")
  else .ok alerts

def CostBudgetEvaluation.payload (evaluation : CostBudgetEvaluation) (windowStart now : Int) (alert : CostAlert) :
    CostAlert :=
  { alert with
    budgetId := evaluation.id
    scope := evaluation.scope
    windowMs := evaluation.windowMs
    windowStart
    windowEnd := now
    exceeded := evaluation.exceeded }

def CostBudgetEvaluation.alert (evaluation : CostBudgetEvaluation) (windowStart now : Int) (uuid : String) : CostAlert where
  id := uuidName "alert-" uuid
  budgetId := evaluation.id
  scope := evaluation.scope
  windowMs := evaluation.windowMs
  windowStart
  windowEnd := now
  exceeded := evaluation.exceeded
  created := now
  acknowledgement := none

def deriveAlert (budgets : List CostBudget) (now : Int) (uuid : String) (evaluation : CostBudgetEvaluation)
    (alerts : List CostAlert) : Except JsError (List CostAlert) :=
  if evaluation.status ≠ .exceeded then .ok alerts
  else if (budgets.find? (·.id = evaluation.id)).any (!·.alertOnExceed) then .ok alerts
  else do
    let windowStart ← isoTime (now - evaluation.windowMs.val)
    if alerts.any (alertOf evaluation.id) then
      return assignFirst (alertOf evaluation.id) (evaluation.payload windowStart now) alerts
    else
      let alerts ← makeRoom alerts
      return alerts ++ [evaluation.alert windowStart now uuid]

def deriveEach (budgets : List CostBudget) (now : Int) (uuid : Nat → String) :
    List CostBudgetEvaluation → List CostAlert → Except JsError (List CostAlert)
  | [], alerts => .ok alerts
  | evaluation :: rest, alerts => do
    let alerts ← deriveAlert budgets now (uuid 0) evaluation alerts
    deriveEach budgets now (fun n => uuid (n + 1)) rest alerts

def deriveAlerts (existing : List CostAlert) (evaluations : List CostBudgetEvaluation) (budgets : List CostBudget)
    (now : Int) (uuid : Nat → String) : Except JsError (List CostAlert) :=
  if evaluations.all (·.status = .within) then .ok existing else deriveEach budgets now uuid evaluations existing

/-! ## Operations -/

structure RecordInput where
  authenticate : Except JsError JsValue
  tenantId : JsValue
  runId : JsValue
  actionId : JsValue
  attribution : JsValue
  amounts : JsValue
  now : Option Int
  uuid : String

def validateRecordInput (input : RecordInput) (now : Int) : Except JsError CostRecord := do
  let attribution ← validateAttribution input.attribution
  let amounts ← validateAmounts input.amounts "Cost record"
  return {
    recordId := uuidName "record-" input.uuid
    tenantId := ← identifier refuse input.tenantId "Cost tenant id"
    runId := ← identifier refuse input.runId "Cost run id"
    actionId := ← identifier refuse input.actionId "Cost action id"
    recordedAt := now
    attribution
    amounts }

def recordCostOp (record : CostRecord) : Mutation CostStoreState JsError CostRecord := do
  let state ← get
  throwIf (∃ other ∈ state.records, other.tenantId = record.tenantId ∧ other.actionId = record.actionId)
    (refuse "Cost record already exists for this tenant and action.")
  throwIf (MAX_RECORDS ≤ state.records.length)
    (refuse "Cost record limit was reached; export and retention review are required.")
  modify fun state => { state with records := state.records ++ [record] }
  return record

def recordCost (input : RecordInput) (store : Option CostStoreState) : Except JsError (CostRecord × CostStoreState) := do
  let _ ← authorize input.authenticate .record
  let now ← format.timestamp input.now
  let record ← validateRecordInput input now
  format.update (recordCostOp record) store

/-- Object.assign gives the stored budget of the name every field of the new one. -/
def configureBudgetOp (budget : CostBudget) : Mutation CostStoreState JsError CostBudget := do
  let state ← get
  if state.budgets.any (·.id = budget.id) then
    modify fun state => { state with budgets := assignFirst (·.id = budget.id) (fun _ => budget) state.budgets }
  else
    throwIf (MAX_BUDGETS ≤ state.budgets.length) (refuse "Cost budget limit was reached.")
    modify fun state => { state with budgets := state.budgets ++ [budget] }
  return budget

def configureBudget (authenticate : Except JsError JsValue) (budget : JsValue) (store : Option CostStoreState) :
    Except JsError (CostBudget × CostStoreState) := do
  let _ ← authorize authenticate .configure
  let budget ← validateBudget budget
  format.update (configureBudgetOp budget) store

def removeBudgetOp (budgetId : Identifier) : Mutation CostStoreState JsError Unit := do
  let state ← get
  throwIf (¬state.budgets.any (·.id = budgetId)) (refuse "Cost budget was not found.")
  modify fun state => { state with budgets := state.budgets.eraseP (·.id = budgetId) }

def removeBudget (authenticate : Except JsError JsValue) (budgetId : JsValue) (store : Option CostStoreState) :
    Except JsError (Unit × CostStoreState) := do
  let _ ← authorize authenticate .configure
  let budgetId ← identifier refuse budgetId "Cost budget id"
  format.update (removeBudgetOp budgetId) store

def listEvaluations (state : CostStoreState) (now : Int) : List CostBudgetEvaluation :=
  let inWindow := state.records.filter fun record => now - MAX_WINDOW_MS ≤ record.recordedAt
  state.budgets.map fun budget => evaluateBudget budget inWindow now

def listAlertsOp (now : Int) (uuid : Nat → String) : Mutation CostStoreState JsError (List CostAlert) := do
  let state ← get
  let alerts ← deriveAlerts state.alerts (listEvaluations state now) state.budgets now uuid
  modify fun state => { state with alerts }
  return alerts

structure ListInput where
  authenticate : Except JsError JsValue
  now : Option Int
  uuid : Nat → String

def listAlerts (input : ListInput) (store : Option CostStoreState) :
    Except JsError (List CostAlert × CostStoreState) := do
  let _ ← authorize input.authenticate .inspect
  let now ← format.timestamp input.now
  format.update (listAlertsOp now input.uuid) store

def acknowledgeAlertOp (principalId : Identifier) (alertId : Identifier) (clock : Option Int) :
    Mutation CostStoreState JsError CostAlert := do
  match (← get).alerts.find? (·.id = alertId.val) with
  | none => throw (refuse "Cost alert was not found.")
  | some alert =>
    throwIf (¬isOpen alert) (refuse "Cost alert is already acknowledged.")
    let now ← format.timestamp clock
    let acknowledged := { alert with acknowledgement := some ⟨principalId, now⟩ }
    modify fun state => { state with alerts := assignFirst (·.id = alertId.val) (fun _ => acknowledged) state.alerts }
    return acknowledged

structure AcknowledgeInput where
  authenticate : Except JsError JsValue
  alertId : JsValue
  now : Option Int

def acknowledgeAlert (input : AcknowledgeInput) (store : Option CostStoreState) :
    Except JsError (CostAlert × CostStoreState) := do
  let operator ← authorize input.authenticate .acknowledge
  let alertId ← identifier refuse input.alertId "Cost alert id"
  format.update (acknowledgeAlertOp operator.principalId alertId input.now) store

/-! ## Reports -/

structure CostReport where
  tenantId : String
  generatedAt : Int
  runId : String
  windowMs : WindowMs
  windowStart : Int
  totals : CostAmounts
  attribution : List (CostDimension × Identifier × CostAmounts)
  budgets : List CostBudgetEvaluation
  alerts : List CostAlert

structure ReportInput where
  authenticate : Except JsError JsValue
  windowMs : JsValue
  projectionDays : JsValue
  runId : JsValue
  now : Option Int
  uuid : Nat → String

theorem month_isWindow : HOUR_MS ≤ 30 * 24 * HOUR_MS ∧ 30 * 24 * HOUR_MS ≤ MAX_WINDOW_MS := by decide

def defaultWindow : WindowMs := ⟨30 * 24 * HOUR_MS, month_isWindow⟩

/-- The window of a report, open to records of the next second. -/
def inReport (windowMs : WindowMs) (now : Int) (record : CostRecord) : Bool :=
  now - windowMs.val ≤ record.recordedAt && record.recordedAt ≤ now + 1000

def windowOf (value : JsValue) : Except JsError WindowMs :=
  if value.isUndefined then .ok defaultWindow else boundedMs value "Cost report window"

/-- The days of the forecast are checked in every report. -/
def checkDays (value : JsValue) : Except JsError Unit :=
  if value.isUndefined then .ok () else discard (boundedDays value "Cost projection days")

def runIdOf (value : JsValue) (uuid : String) : Except JsError String :=
  if value.isUndefined then .ok (uuidName "cost-" uuid) else Subtype.val <$> identifier refuse value "Cost report run id"

def report (input : ReportInput) (store : Option CostStoreState) : Except JsError CostReport := do
  let operator ← authorize input.authenticate .inspect
  let windowMs ← windowOf input.windowMs
  checkDays input.projectionDays
  let now ← format.timestamp input.now
  let runId ← runIdOf input.runId (input.uuid 0)
  let state ← format.read store
  let inWindow := (tenantScoped state.records operator.tenantId).filter (inReport windowMs now)
  let evaluations := state.budgets.map fun budget => evaluateBudget budget inWindow now
  let alerts ← deriveAlerts state.alerts evaluations state.budgets now fun n => input.uuid (n + 1)
  return {
    tenantId := (operator.tenantId.map Subtype.val).getD "ghostapi-local"
    generatedAt := now
    runId
    windowMs
    windowStart := ← isoTime (now - windowMs.val)
    totals := sumAmounts (inWindow.map CostRecord.costs)
    attribution := aggregateAttribution inWindow
    budgets := evaluations
    alerts }

/-! ## The service -/

inductive CostEvent
  | recordCost (input : RecordInput)
  | configureBudget (authenticate : Except JsError JsValue) (budget : JsValue)
  | removeBudget (authenticate : Except JsError JsValue) (budgetId : JsValue)
  | listAlerts (input : ListInput)
  | acknowledgeAlert (input : AcknowledgeInput)

def CostEvent.clock : CostEvent → Option Int
  | .recordCost input => input.now
  | .configureBudget _ _ => none
  | .removeBudget _ _ => none
  | .listAlerts input => input.now
  | .acknowledgeAlert input => input.now

def CostEvent.write (event : CostEvent) (store : Option CostStoreState) : Except JsError CostStoreState := match event with
  | .recordCost input => Prod.snd <$> Costs.recordCost input store
  | .configureBudget authenticate budget => Prod.snd <$> Costs.configureBudget authenticate budget store
  | .removeBudget authenticate budgetId => Prod.snd <$> Costs.removeBudget authenticate budgetId store
  | .listAlerts input => Prod.snd <$> Costs.listAlerts input store
  | .acknowledgeAlert input => Prod.snd <$> Costs.acknowledgeAlert input store

/-- A call that throws leaves the store as it was. -/
def serve (store : Option CostStoreState) (event : CostEvent) : Option CostStoreState := match event.write store with
  | .ok state => some state
  | .error _ => store

def machine : Machine (Option CostStoreState) CostEvent where
  initial := none
  step store event := some (serve store event)

def stateOf (store : Option CostStoreState) : CostStoreState := store.getD emptyState

end GhostApi.Costs
