import GhostApi.Hosted.Accounts
import GhostApi.Js.JsonSize
import GhostApi.Security.Secrets

/-!
# Ingestion of reports and cleanup

A report is the parsed body of a request; only its schema version, run id and
payload are checked, but its hash covers the whole body.
-/

namespace GhostApi.Hosted

open Js Sql Effect

def MAX_REPORT_BYTES : Nat := 512 * 1024

def IDEMPOTENCY_RETENTION_DAYS : Nat := 7

def ReportInputError : String → Failure := .reportInput

def property (value : Json) (key : String) : Option Json := match value with
  | .object fields => fields.lookup key
  | _ => none

def checkIf {ε : Type} (c : Prop) [Decidable c] (e : ε) : Except ε Unit := if c then .error e else .ok ()

def isIdempotencyChar (c : Char) : Bool := isAlnum c || c == '.' || c == '_' || c == ':' || c == '-'

def validateIdempotencyKey (value : String) : Except Failure Unit :=
  checkIf (¬(16 ≤ value.toList.length ∧ value.toList.length ≤ 256 ∧ value.toList.all isIdempotencyChar = true))
    (ReportInputError "Idempotency-Key must contain 16-256 safe characters.")

def isRunId (value : String) : Bool :=
  0 < Js.length value && Js.length value ≤ 128 && !value.toList.any isControl

/-- The characters that toLowerCase maps to texts with ASCII letters. -/
def lowerCase (c : Char) : List Char :=
  if c == '\u212a' then ['k'] else if c == '\u0130' then ['i', '\u0307'] else [c.toLower]

def unsafeNames : List String := ["authorization", "cookie", "set-cookie", "rawbody", "password", "secret", "token"]

def includes (text part : List Char) : Bool := text.tails.any part.isPrefixOf

def isUnsafeName (key : String) : Bool :=
  unsafeNames.any fun name => includes (key.toList.flatMap lowerCase) name.toList

def isBearerChar (c : Char) : Bool := isAlnum c || "._~+/-".toList.contains c

def secretPatterns : List Pattern :=
  [Security.anyCase "sk_live_", Security.anyCase "sk_test_", Security.anyCase "ghp_",
   .seq (Security.anyCase "xox") (.seq (.cls fun c => "baprs".toList.contains c.toLower) (.char '-')),
   .seq (Security.anyCase "Bearer") (.seq (.many1 isSpace) (.atLeast isBearerChar 12))]

def looksSecret (value : String) : Bool :=
  value.toList.tails.any fun rest => secretPatterns.any fun pattern => (pattern.matchPrefix rest).isSome

mutual
def rejectSensitiveValue (depth : Nat) (key : Option String) (value : Json) : Except Failure Unit := do
  checkIf (8 < depth) (ReportInputError "Report payload is too deeply nested.")
  checkIf (key.any isUnsafeName = true) (ReportInputError "Report payload contains an unsafe field.")
  match value with
  | .string s =>
    checkIf (64 * 1024 < Js.length s ∨ looksSecret s = true)
      (ReportInputError "Report payload contains a secret-shaped value.")
  | .array items => do
    checkIf (1000 < items.length) (ReportInputError "Report payload contains too many entries.")
    rejectSensitiveItems (depth + 1) key items
  | .object fields => do
    checkIf (1000 < fields.length) (ReportInputError "Report payload contains too many fields.")
    rejectSensitiveFields (depth + 1) fields
  | _ => .ok ()

def rejectSensitiveItems (depth : Nat) (key : Option String) : List Json → Except Failure Unit
  | [] => .ok ()
  | item :: rest => do
    rejectSensitiveValue depth key item
    rejectSensitiveItems depth key rest

def rejectSensitiveFields (depth : Nat) : List (String × Json) → Except Failure Unit
  | [] => .ok ()
  | (key, value) :: rest => do
    rejectSensitiveValue depth (some key) value
    rejectSensitiveFields depth rest
end

def runIdOf (report : Json) : String := match property report "runId" with
  | some (.string runId) => runId
  | _ => ""

def payloadOf (report : Json) : Json := (property report "payload").getD .null

def isVersionOne : Option Json → Bool
  | some (.number 1) => true
  | _ => false

def isRunIdValue : Option Json → Bool
  | some (.string runId) => isRunId runId
  | _ => false

def validateReport (value : Json) : Except Failure Unit := do
  checkIf (¬(isVersionOne (property value "schemaVersion") = true ∧ isRunIdValue (property value "runId") = true ∧
    isJsonObject (payloadOf value) = true)) (ReportInputError "Report payload is invalid.")
  rejectSensitiveValue 0 none (payloadOf value)
  checkIf (MAX_REPORT_BYTES < value.canonical.utf8ByteSize) (ReportInputError "Report payload exceeds 524288 bytes.")

def constantTimeHexEqual (left right : String) : Bool :=
  left.toList.length == 64 && left.toList.all Sha256.isHexChar && right.toList.length == 64 &&
    right.toList.all Sha256.isHexChar && left == right

structure AcceptedReport where
  reportId : Uuid
  status : Acceptance

structure ReportInput where
  projectId : Uuid
  ingestKeyId : Uuid
  idempotencyKey : String
  report : Json

/-! ## Accepting a report -/

def acceptDuplicate (input : ReportInput) (requestHash : String) : Program AcceptedReport := do
  let existing ← query (.selectIdempotencyForUpdate input.projectId input.idempotencyKey)
  match existing with
  | none => throw (.error "Idempotency record disappeared.")
  | some (reportId, hash) => do
    Program.throwIf (constantTimeHexEqual hash requestHash = false)
      (.idempotencyConflict "Idempotency-Key was reused with a different request.")
    return ⟨reportId, .duplicate⟩

def acceptNew (input : ReportInput) (requestHash : String) (reportId : Uuid) : Program AcceptedReport := do
  let organizationId ← organizationIdForProject input.projectId
  match organizationId with
  | none => throw (ReportInputError "Project is unavailable.")
  | some organizationId => do
    enforceQuota organizationId .reports
    query (.insertReport reportId input.projectId input.ingestKeyId (runIdOf input.report) requestHash
      (payloadOf input.report))
    let eventId ← external .randomUUID
    query (.insertOutboxEvent eventId reportId)
    return ⟨reportId, .accepted⟩

def requestHash (report : Json) : String := sha256 report.canonical

def acceptReport (input : ReportInput) : Program AcceptedReport := do
  validateIdempotencyKey input.idempotencyKey
  validateReport input.report
  let reportId ← external .randomUUID
  let inserted ← query (.insertIdempotency input.projectId input.idempotencyKey (requestHash input.report) reportId
    IDEMPOTENCY_RETENTION_DAYS)
  if inserted then acceptNew input (requestHash input.report) reportId
  else acceptDuplicate input (requestHash input.report)

def markIngestKeyUsed (projectId keyId : Uuid) : Program Unit := do
  let _ ← query (.updateKeyUsed projectId keyId)
  return ()

def ReportInput.entry (input : ReportInput) (accepted : AcceptedReport) : Note :=
  .entry (.report input.projectId input.idempotencyKey input.report accepted.reportId accepted.status)

def submitReport (input : ReportInput) : Program AcceptedReport :=
  transaction input.entry do
    let result ← acceptReport input
    markIngestKeyUsed input.projectId input.ingestKeyId
    return result

/-! ## Cleanup -/

structure Retention where
  reportRetentionDays : Nat
  auditRetentionDays : Nat

structure CleanupCounts where
  reports : Nat
  idempotency : Nat
  outbox : Nat
  receipts : Nat
  invitations : Nat
  audit : Nat

/-- One delete for each row that was found; it answers how many were deleted. -/
def deleteEach {α β : Type} (delete : α → Program (Option β)) : List α → Program Nat
  | [] => return 0
  | row :: rest => do
    let deleted ← delete row
    let count ← deleteEach delete rest
    return (if deleted.isSome then count + 1 else count)

def cleanUp (config : Retention) : Program CleanupCounts := do
  let expired ← query .selectExpiredIdempotency
  let idempotency ← deleteEach (fun (record : Uuid × String) => query (.deleteIdempotency record.1 record.2)) expired
  let settled ← query (.selectSettledReports config.reportRetentionDays)
  let reports ← deleteEach (fun id => query (.deleteReport config.reportRetentionDays id)) settled
  let events ← query .selectSettledEvents
  let outbox ← deleteEach (fun id => query (.deleteEvent id)) events
  let settledReceipts ← query .selectSettledReceipts
  let receipts ← deleteEach (fun id => query (.deleteReceipt id)) settledReceipts
  let stale ← query .selectStaleInvitations
  let invitations ← deleteEach (fun id => query (.deleteInvitation id)) stale
  let old ← query (.selectOldAudit config.auditRetentionDays)
  let audit ← deleteEach (fun id => query (.deleteAudit config.auditRetentionDays id)) old
  return { reports, idempotency, outbox, receipts, invitations, audit }

def runCleanup (config : Retention) : Program CleanupCounts := transaction (fun _ => .entry .cleanup) (cleanUp config)

end GhostApi.Hosted
