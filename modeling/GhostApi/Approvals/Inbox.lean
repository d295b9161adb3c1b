import GhostApi.Approvals.Types
import GhostApi.Lib.Table

/-!
# The local approval inbox

Requests and their replacement. A mutation reads the store under the lock,
changes the state and writes it; a call is a sequence of mutations, and what
an earlier one has written stays when a later one throws. The caller supplies
the clock, the approver verifier and the world that the preflight looks at.
-/

namespace GhostApi.Approvals

open Js Validation Storage Effect Effect.Mutation Table
open Actions (ActionEnvelope validateActionEnvelope actionHash)

abbrev Store := Option ApprovalInboxState

abbrev Op := Mutation ApprovalInboxState JsError

abbrev Call := Mutation Store JsError

/-! ## The store -/

/-- An error that is no error of the inbox, thrown by the check of a stored action, is reported as bad JSON. -/
def read (store : Store) : Except JsError ApprovalInboxState := match format.read store with
  | .ok state => .ok state
  | .error e =>
    .error (if e.name = "ApprovalInboxError" then e else fail "Approval inbox store is not valid JSON.")

/-- How the lock, the clock and the file answer one mutation. A failing write may have reached the file. -/
structure Access where
  clock : Option Int
  lock : Except JsError Unit := .ok ()
  write : Except JsError Unit := .ok ()
  reached : Bool := false

variable {α : Type}

/-- The result of a mutation and the state that it writes. -/
def run (operation : Int → Op α) (access : Access) (store : Store) : Except JsError (α × ApprovalInboxState) := do
  access.lock
  let state ← read store
  let now ← format.timestamp access.clock
  match operation now state with
  | (.error e, _) => throw e
  | (.ok result, state) => return (result, ← format.validate state)

def mutate (operation : Int → Op α) (access : Access) : Call α := fun store =>
  match run operation access store with
  | .error e => (.error e, store)
  | .ok (result, state) => match access.write with
    | .ok _ => (.ok result, some state)
    | .error e => (.error e, if access.reached then some state else store)

/-! ## Steps inside an operation -/

theorem inboxName_isIdentifier : isIdentifier "approval-inbox" = true := by decide +kernel

def inboxName : Identifier := ⟨"approval-inbox", inboxName_isIdentifier⟩

theorem event_accepted : ∀ event ∈ ["request.created", "request.timed_out", "request.expired", "request.superseded"],
    acceptsText 80 event = true ∧ trim event = event := by decide +kernel

def requestCreated : Text 80 := ⟨"request.created", event_accepted _ (by simp)⟩

def requestTimedOut : Text 80 := ⟨"request.timed_out", event_accepted _ (by simp)⟩

def requestExpired : Text 80 := ⟨"request.expired", event_accepted _ (by simp)⟩

def requestSuperseded : Text 80 := ⟨"request.superseded", event_accepted _ (by simp)⟩

/-- Only the records of an execution have a receipt hash. -/
def appendAudit (event : Text 80) (request : ApprovalRequest) (actorId : Identifier) (now : Int)
    (state : ApprovalInboxState) : ApprovalInboxState :=
  let base : AuditBase := {
    sequence := state.audit.length + 1
    event
    requestId := request.id
    actionHash := request.actionHash
    actionReceiptHash := none
    actorId
    timestamp := Date.toISOString now
    previousHash := auditChain.latest state.auditAnchor state.audit }
  { state with audit := state.audit ++ [base.seal] }

/-- What the passing of time makes of a request, if anything. -/
def lapse (now : Int) (request : ApprovalRequest) : Option (ApprovalRequestStatus × Text 80) :=
  if request.status = .pending ∧ parsed request.escalationAt ≤ now then some (.timedOut, requestTimedOut)
  else if (request.status = .pending ∨ request.status = .approved) ∧ parsed request.expiresAt ≤ now then
    some (.expired, requestExpired)
  else none

def lapsed (now : Int) (request : ApprovalRequest) : ApprovalRequest :=
  (lapse now request).elim request fun change => { request with status := change.1 }

def noteLapse (now : Int) (state : ApprovalInboxState) (request : ApprovalRequest) : ApprovalInboxState :=
  (lapse now request).elim state fun change => appendAudit change.2 request inboxName now state

/-- The loop over the requests, with their changes and their audit records apart. -/
def refresh (now : Int) (state : ApprovalInboxState) : ApprovalInboxState :=
  { state.requests.foldl (noteLapse now) state with requests := state.requests.map (lapsed now) }

def findRequest (state : ApprovalInboxState) (requestId : Identifier) : Except JsError ApprovalRequest :=
  match state.requests.find? (·.id == requestId) with
  | some request => .ok request
  | none => .error (fail "Approval request was not found.")

/-- The state after a change of a request that was found in it. -/
def setRequest (request : ApprovalRequest) (state : ApprovalInboxState) : ApprovalInboxState :=
  { state with requests := upsert (·.id == request.id) request state.requests }

/-! ## Operations -/

/-- toISOString of a new date, which is invalid beyond 10 ^ 8 days from the epoch. -/
def isoString (ms : Int) : Except JsError String :=
  if ms.natAbs ≤ 8640000000000000 then .ok (Date.toISOString ms)
  else .error ⟨"RangeError", "Invalid time value", none⟩

def requestName (uuid : String) : Except JsError Identifier :=
  identifier fail (.string ("approval-" ++ String.ofList (uuid.toList.filter (· ≠ '-')))) "Approval request id"

def stands (action : ActionEnvelope) (request : ApprovalRequest) : Bool :=
  request.actionHash == actionHash action && decide (request.status ≠ .superseded)

def expiry (action : ActionEnvelope) (policy : ApprovalPolicy) (now : Int) : Int :=
  min (timeOf action.expiresAt) (now + policy.approvalTtlMs.val)

def escalation (policy : ApprovalPolicy) (now : Int) : Int := now + policy.escalationTimeoutMs.val

/-- A new request, given its evaluation, its id, its risk and its printed times. -/
def created (action : ActionEnvelope) (policy : ApprovalPolicy) (context : ApprovalContext)
    (decision : ApprovalEvaluation) (id : Identifier) (risk : ApprovalRisk) (createdAt expiresAt escalationAt : String) :
    ApprovalRequest where
  id
  action
  actionHash := actionHash action
  risk
  context
  policy := {
    id := policy.id
    version := policy.version
    hash := policyHash policy
    requiredApprovals := decision.requiredApprovals }
  display := display action context decision.reasons
  status := .pending
  createdAt
  expiresAt
  escalationAt
  decisions := []
  artifact := none
  consumedAt := none
  executionReceiptHash := none
  supersedesRequestId := none

def pushRequest (request : ApprovalRequest) (state : ApprovalInboxState) : ApprovalInboxState :=
  { state with requests := state.requests ++ [request] }

def createOp (action : ActionEnvelope) (policy : ApprovalPolicy) (context : ApprovalContext) (uuid : String)
    (now : Int) : Op ApprovalRequest := do
  modify (refresh now)
  let state ← get
  match state.requests.find? (stands action) with
  | some existing => return existing
  | none =>
    let decision ← liftM (evaluate policy action context state.requests now none)
    throwIf (decision.allowed = false)
      (fail ("Approval policy denies this action: " ++ "; ".intercalate decision.reasons))
    let expiresAt ← liftM (isoString (expiry action policy now))
    let id ← liftM (requestName uuid)
    let risk ← liftM (classify action)
    let escalationAt ← liftM (isoString (escalation policy now))
    let request := created action policy context decision id risk (Date.toISOString now) expiresAt escalationAt
    modify (pushRequest request)
    modify (appendAudit requestCreated request action.actor.id now)
    return request

def supersedeOp (requestId : Identifier) (approverId : String) (now : Int) : Op ApprovalRequest := do
  modify (refresh now)
  let state ← get
  let request ← liftM (findRequest state requestId)
  throwIf (request.status = .executing ∨ request.status = .executed ∨ request.consumedAt ≠ none)
    (fail "Executed or executing approvals cannot be edited.")
  let superseded := { request with status := .superseded }
  modify (setRequest superseded)
  let actorId ← liftM (identifier fail (.string approverId) "Approval audit actor id")
  modify (appendAudit requestSuperseded superseded actorId now)
  return superseded

def linkOp (nextId oldId : Identifier) (_ : Int) : Op ApprovalRequest := do
  let state ← get
  let request ← liftM (findRequest state nextId)
  let linked := { request with supersedesRequestId := some oldId }
  modify (setRequest linked)
  return linked

/-! ## Calls -/

structure RequestInput where
  action : JsValue
  policy : JsValue
  context : JsValue

structure RequestChoice where
  clock : Option Int
  simulated : Except JsError Unit := .ok ()
  access : Access
  uuid : String

structure Prepared where
  action : ActionEnvelope
  policy : ApprovalPolicy
  context : ApprovalContext

/-- What request does before its mutation. The preflight plan compares resource and argument of the
envelope, which are one member here, so it never throws. -/
def prepare (input : RequestInput) (choice : RequestChoice) : Except JsError Prepared := do
  let action ← validateActionEnvelope input.action
  let policy ← validatePolicy input.policy
  let context ← validateContext input.context
  let now ← format.timestamp choice.clock
  failIf (timeOf action.expiresAt ≤ now) (fail "Action has expired.")
  choice.simulated
  return ⟨action, policy, context⟩

def request (input : RequestInput) (choice : RequestChoice) : Call ApprovalRequest := do
  let prepared ← liftM (prepare input choice)
  mutate (createOp prepared.action prepared.policy prepared.context choice.uuid) choice.access

structure EditInput where
  requestId : JsValue
  replacement : RequestInput

structure EditChoice where
  approver : Except JsError String
  supersede : Access
  request : RequestChoice
  link : Access

/-- The calls of editAndResubmit once the old request is superseded. -/
def resubmit (input : EditInput) (choice : EditChoice) (old : ApprovalRequest) : Call ApprovalRequest := do
  let next ← request input.replacement choice.request
  throwIf (next.actionHash = old.actionHash)
    (fail "Edit-and-resubmit requires changed normalized action arguments.")
  mutate (linkOp next.id old.id) choice.link

def editAndResubmit (input : EditInput) (choice : EditChoice) : Call ApprovalRequest := do
  let approverId ← liftM choice.approver
  let requestId ← liftM (identifier fail input.requestId "Approval request id")
  let old ← mutate (supersedeOp requestId approverId) choice.supersede
  resubmit input choice old

end GhostApi.Approvals
