import GhostApi.Actions.Types
import GhostApi.Js.Canonical
import GhostApi.Lib.HashChain

/-!
# Entries of the action ledger

Each tenant has a hash chain of entries in one shared array. Kind and schema
version of the records are fixed. The structured data of an entry is an object
of scalars under distinct names.
-/

namespace GhostApi.Ledger

open Js Security Validation Effect

def MAX_LEDGER_BYTES : Nat := 2 * 1024 * 1024

def MAX_ENTRIES : Nat := 2000

def MAX_TENANTS : Nat := 200

def ActionLedgerError (message : String) : JsError := ⟨"ActionLedgerError", message, none⟩

abbrev refuse : String → JsError := ActionLedgerError

inductive LedgerPermission
  | append
  | read
  | exports
  | manageRetention
  | manageHold
  | requestDeletion
  deriving DecidableEq

inductive LedgerStage
  | intent
  | identity
  | policyDecision
  | approval
  | credentialGrant
  | executionAttempt
  | providerReceipt
  | verification
  | compensation
  | retention
  | legalHold
  | deletionRequest
  deriving DecidableEq

def LedgerStage.all : List LedgerStage :=
  [.intent, .identity, .policyDecision, .approval, .credentialGrant, .executionAttempt, .providerReceipt,
   .verification, .compensation, .retention, .legalHold, .deletionRequest]

def LedgerStage.text : LedgerStage → String
  | .intent => "intent"
  | .identity => "identity"
  | .policyDecision => "policy_decision"
  | .approval => "approval"
  | .credentialGrant => "credential_grant"
  | .executionAttempt => "execution_attempt"
  | .providerReceipt => "provider_receipt"
  | .verification => "verification"
  | .compensation => "compensation"
  | .retention => "retention"
  | .legalHold => "legal_hold"
  | .deletionRequest => "deletion_request"

/-! ## Structured data -/

def acceptsString (maximum : Nat) (s : String) : Bool :=
  s != "" && Js.length s ≤ maximum && sanitizeSecretString s == s

inductive LedgerScalar
  | string (s : { s : String // acceptsString 512 s = true })
  | integer (z : Int)
  | fraction (text : { s : String // Json.isFraction s = true })
  | bool (b : Bool)
  | null
  deriving DecidableEq

def LedgerScalar.toJson : LedgerScalar → Json
  | .string s => .string s.val
  | .integer z => .number z
  | .fraction text => .fraction text.val
  | .bool b => .bool b
  | .null => .null

def LedgerScalar.toValue : LedgerScalar → JsValue
  | .string s => .string s.val
  | .integer z => .number (.integer z)
  | .fraction text => .number (.fraction text.val)
  | .bool b => .bool b
  | .null => .null

/-- The test /^[a-z][a-zA-Z0-9]{0,63}$/ -/
def isFieldName (key : String) : Bool := match key.toList with
  | [] => false
  | c :: cs => isLower c && cs.all isAlnum && cs.length ≤ 63

def forbiddenWords : List String :=
  ["authorization", "cookie", "token", "secret", "password", "email", "phone", "address", "card", "payload", "body"]

def isForbidden (key : String) : Bool :=
  let lower := key.toList.map Char.toLower
  forbiddenWords.any fun word => lower.tails.any (word.toList.isPrefixOf ·)

def acceptsName (key : String) : Bool := isFieldName key && !isForbidden key

structure LedgerData where
  fields : List (String × LedgerScalar)
  distinct : (fields.map Prod.fst).Nodup
  bounded : fields.length ≤ 16
  named : ∀ field ∈ fields, acceptsName field.1 = true
  deriving DecidableEq

def LedgerData.get (data : LedgerData) (key : String) : Option LedgerScalar := data.fields.lookup key

def LedgerData.toJson (data : LedgerData) : Json := .object (data.fields.map fun field => (field.1, field.2.toJson))

def LedgerData.toValue (data : LedgerData) : JsValue :=
  .object (data.fields.map fun field => (field.1, field.2.toValue))

def safeString (value : JsValue) (label : String) (maximum : Nat) :
    Except JsError { s : String // acceptsString maximum s = true } := match value with
  | .string s => if h : acceptsString maximum s = true then .ok ⟨s, h⟩
    else .error (refuse (label ++ " must be a bounded non-secret string."))
  | _ => .error (refuse (label ++ " must be a bounded non-secret string."))

def normalizeScalar (key : String) : JsValue → Except JsError LedgerScalar
  | .string s => do return .string (← safeString (.string s) ("Ledger structured field " ++ key) 512)
  | .number (.integer z) => .ok (.integer z)
  | .number (.fraction text) => if h : Json.isFraction text = true then .ok (.fraction ⟨text, h⟩)
    else .error (refuse ("Ledger structured field " ++ key ++ " must be finite."))
  | .number .nonFinite => .error (refuse ("Ledger structured field " ++ key ++ " must be finite."))
  | .bool b => .ok (.bool b)
  | .null => .ok .null
  | _ => .error (refuse ("Ledger structured field " ++ key ++ " must be scalar."))

def normalizeFields : List (String × JsValue) → Except JsError (List (String × LedgerScalar))
  | [] => .ok []
  | (key, value) :: rest => do
    failIf (¬acceptsName key) (refuse ("Ledger structured field is forbidden: " ++ key))
    let scalar ← normalizeScalar key value
    return (key, scalar) :: (← normalizeFields rest)

def normalizeData (value : JsValue) : Except JsError LedgerData := do
  let data ← object refuse value "Ledger structured data must be an object."
  failIf (16 < data.length) (refuse "Ledger structured data has too many fields.")
  let fields ← normalizeFields data
  if h : (fields.map Prod.fst).Nodup ∧ fields.length ≤ 16 ∧ ∀ field ∈ fields, acceptsName field.1 = true then
    return ⟨fields, h.1, h.2.1, h.2.2⟩
  else throw (refuse "Ledger structured data must be an object.")

theorem normalizeScalar_toValue (key : String) (scalar : LedgerScalar) :
    normalizeScalar key scalar.toValue = .ok scalar := by
  cases scalar with
  | string s =>
    rw [LedgerScalar.toValue, normalizeScalar, safeString, dif_pos s.property]
    rfl
  | integer z => rfl
  | fraction text => exact dif_pos text.property
  | bool b => rfl
  | null => rfl

theorem normalizeFields_toValue {fields : List (String × LedgerScalar)}
    (h : ∀ field ∈ fields, acceptsName field.1 = true) :
    normalizeFields (fields.map fun field => (field.1, field.2.toValue)) = .ok fields := by
  induction fields with
  | nil => rfl
  | cons field rest ih =>
    rw [List.forall_mem_cons] at h
    rw [List.map_cons, normalizeFields, failIf_of_not (not_not.mpr h.1), normalizeScalar_toValue, ih h.2]
    rfl

theorem normalizeData_of_fields {entries : List (String × JsValue)} {data : LedgerData}
    (h : normalizeFields entries = .ok data.fields) (hLength : entries.length ≤ 16) :
    normalizeData (.object entries) = .ok data := by
  have hObject : object refuse (.object entries) "Ledger structured data must be an object." = .ok entries := rfl
  rw [normalizeData, hObject, ok_bind, failIf_of_not (Nat.not_lt.mpr hLength), ok_bind, h, ok_bind,
    dif_pos ⟨data.distinct, data.bounded, data.named⟩]
  rfl

theorem normalizeData_toValue (data : LedgerData) : normalizeData data.toValue = .ok data :=
  normalizeData_of_fields (normalizeFields_toValue data.named) (by simpa using data.bounded)

/-! ## Entries -/

structure EntryBase where
  tenantId : Identifier
  sequence : { n : Nat // 1 ≤ n }
  timestamp : Timestamp
  actionId : Identifier
  actionHash : Hash
  stage : LedgerStage
  data : LedgerData
  previousHash : Hash
  deriving DecidableEq

structure LedgerEntry extends EntryBase where
  entryHash : Hash
  deriving DecidableEq

def EntryBase.members (base : EntryBase) : List (String × Json) :=
  [("schemaVersion", .number 1), ("kind", .string "ghostapi.action-ledger-entry"),
    ("tenantId", .string base.tenantId.val), ("sequence", .number base.sequence.val),
    ("timestamp", .string base.timestamp.val), ("actionId", .string base.actionId.val),
    ("actionHash", .string base.actionHash.val), ("stage", .string base.stage.text), ("data", base.data.toJson),
    ("previousHash", .string base.previousHash.val)]

def EntryBase.canonical (base : EntryBase) : String := Json.canonical (.object base.members)

def EntryBase.seal (base : EntryBase) : LedgerEntry := { base with entryHash := hashOf base.canonical }

def LedgerEntry.toJson (entry : LedgerEntry) : Json :=
  .object (entry.members ++ [("entryHash", .string entry.entryHash.val)])

structure EntryCore where
  tenantId : Identifier
  timestamp : Timestamp
  actionId : Identifier
  actionHash : Hash
  stage : LedgerStage
  data : LedgerData
  deriving DecidableEq

def LedgerEntry.core (entry : LedgerEntry) : EntryCore :=
  ⟨entry.tenantId, entry.timestamp, entry.actionId, entry.actionHash, entry.stage, entry.data⟩

structure LedgerTenantState where
  tenantId : Identifier
  entryCount : Nat
  headHash : Hash
  retentionDays : Option (Positive 3650)
  legalHold : Bool
  deletionRequestedAt : Option Timestamp
  deriving DecidableEq

def LedgerTenantState.toJson (tenant : LedgerTenantState) : Json :=
  .object ([("tenantId", .string tenant.tenantId.val), ("entryCount", .number tenant.entryCount),
    ("headHash", .string tenant.headHash.val),
    ("retentionDays", match tenant.retentionDays with
      | some days => .number days.val
      | none => .null),
    ("legalHold", .bool tenant.legalHold)] ++
    Json.optional "deletionRequestedAt" (tenant.deletionRequestedAt.map fun time => .string time.val))

structure ActionLedgerState where
  entries : List LedgerEntry
  tenants : List LedgerTenantState
  deriving DecidableEq

def ActionLedgerState.toJson (state : ActionLedgerState) : Json :=
  .object [("schemaVersion", .number 1), ("kind", .string "ghostapi.action-ledger"),
    ("entries", .array (state.entries.map LedgerEntry.toJson)),
    ("tenants", .array (state.tenants.map LedgerTenantState.toJson))]

/-! ## Validators -/

def identifier (value : JsValue) (label : String) : Except JsError Identifier :=
  identifierOr (refuse (label ++ " must be a safe stable identifier.")) value

def hash (value : JsValue) (label : String) : Except JsError Hash :=
  hashOr (refuse (label ++ " must be a SHA-256 hex digest.")) value

def positiveInteger (value : JsValue) (label : String) : Except JsError { n : Nat // 1 ≤ n } := match value with
  | .number (.integer z) => if h : 1 ≤ z.toNat then .ok ⟨z.toNat, h⟩
    else .error (refuse (label ++ " must be a positive integer."))
  | _ => .error (refuse (label ++ " must be a positive integer."))

def nonNegativeInteger (value : JsValue) (label : String) : Except JsError Nat := match value with
  | .number (.integer z) => if 0 ≤ z then .ok z.toNat
    else .error (refuse (label ++ " must be a non-negative integer."))
  | _ => .error (refuse (label ++ " must be a non-negative integer."))

/-- Members may be undefined. -/
def exactKeys (fields : Fields) (keys : List String) (label : String) : Except JsError Unit :=
  Validation.exactKeys refuse fields keys label keys

def isOne : JsValue → Bool
  | .number (.integer 1) => true
  | _ => false

def isText (expected : String) : JsValue → Bool
  | .string s => s == expected
  | _ => false

def validateEntry (value : JsValue) : Except JsError LedgerEntry := do
  let entry ← object refuse value "Ledger entry must be an object."
  exactKeys entry ["schemaVersion", "kind", "tenantId", "sequence", "timestamp", "actionId", "actionHash", "stage",
    "data", "previousHash", "entryHash"] "Ledger entry"
  failIf (¬isOne (entry.get "schemaVersion") ∨ ¬isText "ghostapi.action-ledger-entry" (entry.get "kind"))
    (refuse "Ledger entry schema is invalid.")
  let stage ← enumerated refuse LedgerStage.all LedgerStage.text (entry.get "stage") "Ledger entry schema is invalid."
  let normalized : EntryBase := {
    tenantId := ← identifier (entry.get "tenantId") "Ledger tenant id"
    sequence := ← positiveInteger (entry.get "sequence") "Ledger sequence"
    timestamp := ← timestamp refuse (entry.get "timestamp") "Ledger timestamp"
    actionId := ← identifier (entry.get "actionId") "Ledger action id"
    actionHash := ← hash (entry.get "actionHash") "Ledger action hash"
    stage
    data := ← normalizeData (entry.get "data")
    previousHash := ← hash (entry.get "previousHash") "Ledger previous hash" }
  let entryHash ← hash (entry.get "entryHash") "Ledger entry hash"
  failIf (entryHash ≠ normalized.seal.entryHash) (refuse "Ledger entry hash is invalid.")
  return { normalized with entryHash }

def validateRetentionDays : JsValue → Except JsError (Option (Positive 3650))
  | .null => .ok none
  | .number (.integer z) => if h : 1 ≤ z.toNat ∧ z.toNat ≤ 3650 then .ok (some ⟨z.toNat, h⟩)
    else .error (refuse "Ledger tenant retention state is invalid.")
  | _ => .error (refuse "Ledger tenant retention state is invalid.")

def validateTenant (value : JsValue) : Except JsError LedgerTenantState := do
  let tenant ← object refuse value "Ledger tenant state is invalid."
  exactKeys tenant ["tenantId", "entryCount", "headHash", "retentionDays", "legalHold", "deletionRequestedAt"]
    "Ledger tenant state"
  let deletionRequestedAt ← match tenant.get "deletionRequestedAt" with
    | .undefined => pure none
    | time => some <$> timestamp refuse time "Ledger deletion request timestamp"
  let retentionDays ← validateRetentionDays (tenant.get "retentionDays")
  let legalHold ← boolean refuse (tenant.get "legalHold") "Ledger tenant retention state is invalid."
  return {
    tenantId := ← identifier (tenant.get "tenantId") "Ledger tenant id"
    entryCount := ← nonNegativeInteger (tenant.get "entryCount") "Ledger tenant entry count"
    headHash := ← hash (tenant.get "headHash") "Ledger tenant head hash"
    retentionDays, legalHold, deletionRequestedAt }

def genesisHash (tenantId : Identifier) : Hash := hashOf ("ghostapi.action-ledger.v1:" ++ tenantId.val)

def entryChain : NumberedChain LedgerEntry Hash where
  previousHash entry := entry.previousHash
  recordHash := LedgerEntry.entryHash
  sequence entry := entry.sequence.val

def entriesOf (tenantId : Identifier) (entries : List LedgerEntry) : List LedgerEntry :=
  entries.filter (·.tenantId = tenantId)

/-! ## Validators return what they accepted before -/

def LedgerEntry.toValue (entry : LedgerEntry) : JsValue :=
  .object [("schemaVersion", .number (.integer 1)), ("kind", .string "ghostapi.action-ledger-entry"),
    ("tenantId", .string entry.tenantId.val), ("sequence", .number (.integer entry.sequence.val)),
    ("timestamp", .string entry.timestamp.val), ("actionId", .string entry.actionId.val),
    ("actionHash", .string entry.actionHash.val), ("stage", .string entry.stage.text), ("data", entry.data.toValue),
    ("previousHash", .string entry.previousHash.val), ("entryHash", .string entry.entryHash.val)]

def retentionValue : Option (Positive 3650) → JsValue
  | some days => .number (.integer days.val)
  | none => .null

def LedgerTenantState.toValue (tenant : LedgerTenantState) : JsValue :=
  .object [("tenantId", .string tenant.tenantId.val), ("entryCount", .number (.integer tenant.entryCount)),
    ("headHash", .string tenant.headHash.val),
    ("retentionDays", retentionValue tenant.retentionDays), ("legalHold", .bool tenant.legalHold),
    ("deletionRequestedAt", match tenant.deletionRequestedAt with
      | some time => .string time.val
      | none => .undefined)]

def ActionLedgerState.toValue (state : ActionLedgerState) : JsValue :=
  .object [("schemaVersion", .number (.integer 1)), ("kind", .string "ghostapi.action-ledger"),
    ("entries", .array (state.entries.map LedgerEntry.toValue)),
    ("tenants", .array (state.tenants.map LedgerTenantState.toValue))]

theorem identifier_val (id : Identifier) (label : String) : identifier (.string id.val) label = .ok id :=
  dif_pos id.property

theorem hash_val (h : Hash) (label : String) : hash (.string h.val) label = .ok h := dif_pos h.property

theorem positiveInteger_val (n : { n : Nat // 1 ≤ n }) (label : String) :
    positiveInteger (.number (.integer n.val)) label = .ok n := by
  rw [positiveInteger, dif_pos (by simpa using n.property)]
  rfl

theorem nonNegativeInteger_val (n : Nat) (label : String) :
    nonNegativeInteger (.number (.integer n)) label = .ok n := by
  rw [nonNegativeInteger, if_pos (Int.natCast_nonneg n)]
  rfl

theorem validateRetentionDays_val (days : Option (Positive 3650)) :
    validateRetentionDays (retentionValue days) = .ok days := by
  cases days with
  | none => rfl
  | some days =>
    rw [retentionValue, validateRetentionDays, dif_pos (by simpa using days.property)]
    rfl

theorem validateEntry_toValue (entry : LedgerEntry) : validateEntry entry.toValue = (do
    failIf (entry.entryHash ≠ entry.toEntryBase.seal.entryHash) (refuse "Ledger entry hash is invalid.")
    return entry) := by
  have hStage : enumerated refuse LedgerStage.all LedgerStage.text (.string entry.stage.text)
      "Ledger entry schema is invalid." = .ok entry.stage := by
    cases entry.stage <;> rfl
  have hSchema : ∀ e, failIf (isOne (.number (.integer 1)) = false ∨
      isText "ghostapi.action-ledger-entry" (.string "ghostapi.action-ledger-entry") = false) e = .ok () :=
    failIf_of_not (by simp [isOne, isText])
  rw [validateEntry, LedgerEntry.toValue]
  simp [object, exactKeys, Validation.exactKeys, Fields.get, List.lookup_cons, JsValue.isUndefined, hStage,
    identifier_val, hash_val, positiveInteger_val, timestamp_val, normalizeData_toValue, pure, Except.pure, bind,
    Except.bind, hSchema]

theorem validateTenant_toValue (tenant : LedgerTenantState) : validateTenant tenant.toValue = .ok tenant := by
  obtain ⟨tenantId, entryCount, headHash, retentionDays, legalHold, deletionRequestedAt⟩ := tenant
  rw [validateTenant, LedgerTenantState.toValue]
  cases deletionRequestedAt with
  | none =>
    simp [object, exactKeys, Validation.exactKeys, Fields.get, List.lookup_cons, JsValue.isUndefined, identifier_val,
      hash_val, nonNegativeInteger_val, validateRetentionDays_val, boolean, pure, Except.pure, bind, Except.bind]
  | some time =>
    simp [object, exactKeys, Validation.exactKeys, Fields.get, List.lookup_cons, JsValue.isUndefined, identifier_val,
      hash_val, nonNegativeInteger_val, validateRetentionDays_val, boolean, timestamp_val, pure, Except.pure, bind,
      Except.bind, Functor.map, Except.map]

end GhostApi.Ledger
