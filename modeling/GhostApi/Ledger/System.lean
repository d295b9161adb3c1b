import GhostApi.Ledger.Ledger

/-!
# Runs of the action ledger

Callers of any tenants call the ledger one at a time under the file lock. An
operation reads the clock once for each entry that it appends, and the
readings are arbitrary.
-/

namespace GhostApi.Ledger

open Js Validation Effect Actions Storage

structure LedgerAccess where
  tenantId : JsValue
  principalId : JsValue
  permissions : List LedgerPermission

structure Options where
  accessAuthorizer : JsValue → LedgerPermission → String → Except JsError LedgerAccess

def accessTenantId : JsValue → Except JsError String
  | .object fields => match Fields.get fields "tenantId" with
    | .string s => do return (← identifier (.string s) "Ledger tenant id").val
    | _ => .ok "opaque"
  | .array _ => .ok "opaque"
  | _ => .error (refuse "Ledger access is not a verified capability.")

def authorize (options : Options) (access : JsValue) (permission : LedgerPermission) : Except JsError Identifier := do
  let authorized ← options.accessAuthorizer access permission (← accessTenantId access)
  failIf (permission ∉ authorized.permissions)
    (refuse "Ledger access authorizer returned an insufficient permission set.")
  let tenantId ← identifier authorized.tenantId "Ledger tenant id"
  let _ ← identifier authorized.principalId "Ledger principal id"
  return tenantId

def validateRetention : JsValue → Except JsError (Option (Positive 3650))
  | .null => .ok none
  | .number (.integer z) => if h : 1 ≤ z.toNat ∧ z.toNat ≤ 3650 then .ok (some ⟨z.toNat, h⟩)
    else .error (refuse "Retention days must be an integer from 1 through 3650.")
  | _ => .error (refuse "Retention days must be an integer from 1 through 3650.")

/-- What exportTenant returns: the verification of the tenant and its entries. -/
structure LedgerExport where
  tenantId : Identifier
  exportedAt : Int
  integrity : LedgerVerification
  entries : List LedgerEntry

inductive Call
  | recordAction (access : JsValue) (record : ActionLedgerRecord)
  | configureRetention (access retentionDays : JsValue)
  | setLegalHold (access active : JsValue)
  | requestDeletion (access : JsValue)

abbrev Store := Option ActionLedgerState

structure Operation where
  tenantId : Identifier
  run : Clock → Op Unit

/-- What a call runs under the lock, once its access and arguments are accepted. -/
def Call.operation (options : Options) : Call → Except JsError Operation
  | .recordAction access record => do
    let tenantId ← authorize options access .append
    let record ← normalizeActionRecord record
    return ⟨tenantId, fun clock => do let _ ← recordActionOp tenantId record clock⟩
  | .configureRetention access retentionDays => do
    let tenantId ← authorize options access .manageRetention
    let retentionDays ← validateRetention retentionDays
    return ⟨tenantId, fun clock => do let _ ← configureRetentionOp tenantId retentionDays clock⟩
  | .setLegalHold access active => do
    let tenantId ← authorize options access .manageHold
    let active ← boolean refuse active "Legal hold state must be boolean."
    return ⟨tenantId, fun clock => do let _ ← setLegalHoldOp tenantId active clock⟩
  | .requestDeletion access => do
    let tenantId ← authorize options access .requestDeletion
    return ⟨tenantId, fun clock => do let _ ← requestDeletionOp tenantId clock⟩

def perform (options : Options) (call : Call) (clock : Clock) (store : Store) : Except JsError ActionLedgerState := do
  let operation ← call.operation options
  let (_, state) ← format.update (operation.run clock) store
  return state

structure Event where
  call : Call
  clock : Clock

def stateOf (store : Store) : ActionLedgerState := store.getD emptyState

def exportTenant (options : Options) (access : JsValue) (reading : Option Int) (store : Store) :
    Except JsError LedgerExport := do
  let tenantId ← authorize options access .exports
  let state ← format.read store
  match verifyTenantState state tenantId with
  | .invalid error => throw (refuse ("Ledger integrity verification failed: " ++ error))
  | .valid entryCount headHash tracked =>
    let exportedAt ← format.timestamp reading
    return ⟨tenantId, exportedAt, .valid entryCount headHash tracked, entriesOf tenantId state.entries⟩

/-- A call that throws leaves the store as it was. -/
def take (options : Options) (store : Store) (event : Event) : Store :=
  match perform options event.call event.clock store with
  | .error _ => store
  | .ok state => some state

def machine (options : Options) : Transition.Machine Store Event where
  initial := none
  step store event := some (take options store event)

end GhostApi.Ledger
