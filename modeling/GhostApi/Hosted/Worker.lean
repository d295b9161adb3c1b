import GhostApi.Hosted.Scenario

/-!
# The dispatcher and the report worker

A delivery claims its report in one transaction, does the work in another one
and, where that fails, notes the failure in a third. The dispatcher leases due
events in a transaction and then publishes them one by one.
-/

namespace GhostApi.Hosted

open Js Sql Effect

def Failure.message : Failure → String
  | .database problem => problem.message
  | .tenantQuota resource => resource
  | .jobLeaseActive => "Report worker lease is active."
  | .reportInput message => message
  | .idempotencyConflict message => message
  | .publish message => message
  | .error message => message
  | .scenarioDefinition => "invalid_scenario_definition"

def isFailureCodeChar (c : Char) : Bool := isAlnum c || c == '_' || c == ':' || c == '-'

def safeFailureCode (error : Failure) : String :=
  let value := error.message
  if 1 ≤ value.toList.length ∧ value.toList.length ≤ 120 ∧ value.toList.all isFailureCodeChar = true then
    value.map Char.toLower
  else "processing_error"

/-! ## Dispatching -/

/-- One update for each event that was found; it answers the reports of the events that qualified. -/
def deadLetterEach (maxAttempts : Nat) : List Uuid → Program (List Uuid)
  | [] => return []
  | id :: rest => do
    let event ← query (.deadLetterEvent maxAttempts id)
    let reports ← deadLetterEach maxAttempts rest
    return (match event with
      | some (event : OutboxEvent) => event.aggregateId :: reports
      | none => reports)

def failEach : List Uuid → Program Unit
  | [] => return ()
  | id :: rest => do
    let _ ← query (.failAcceptedReport id)
    failEach rest

def leaseOutbox (maxAttempts limit : Nat) : Program (List LeasedEvent) := do
  let found ← query (.selectExhaustedEvents maxAttempts)
  let exhausted ← deadLetterEach maxAttempts found
  failEach exhausted
  query (.leaseEvents limit maxAttempts)

def publishEvent (event : LeasedEvent) : Program Unit := do
  external (.publish event)
  external (.published event)
  let _ ← primary (.updateEventDispatched event.id)
  return ()

def noteFailure (maxAttempts : Nat) (event : LeasedEvent) (error : Failure) : Program Unit := do
  let _ ← primary (.updateEventFailed event.id (maxAttempts ≤ event.attempts) (safeFailureCode error))
  match event.payload.reportId with
  | some reportId =>
    if maxAttempts ≤ event.attempts then do
      let _ ← primary (.failAcceptedReport reportId)
      return ()
    else return ()
  | none => return ()

def publishEach (maxAttempts : Nat) : List LeasedEvent → Program Unit
  | [] => return ()
  | event :: rest => do
    tryCatch (publishEvent event) (noteFailure maxAttempts event)
    publishEach maxAttempts rest

def dispatchOutbox (maxAttempts limit : Nat) : Program Nat := do
  let events ← transaction .leased (leaseOutbox maxAttempts limit)
  publishEach maxAttempts events
  return events.length

/-! ## Processing a report -/

def claimReport (eventId reportId : Uuid) (maxAttempts : Nat) : Program Claim := do
  let aggregate ← query (.selectEventReportForUpdate eventId)
  Program.throwIf (aggregate ≠ some reportId) (.error "queue_event_mismatch")
  let upserted ← query (.upsertReceipt maxAttempts eventId)
  if upserted then do
    let _ ← query (.updateReportProcessing reportId)
    return .claimed
  else do
    let existing ← query (.selectReceiptForUpdate eventId)
    match existing with
    | some (.completed, _) | some (.deadLetter, _) => return .duplicate
    | some (.failed, attempts) =>
      if maxAttempts ≤ attempts then do
        let _ ← query (.updateReceiptExhausted eventId)
        let _ ← query (.updateReportExhausted reportId)
        return .deadLetter
      else throw .jobLeaseActive
    | some (.processing, _) | none => throw .jobLeaseActive

def invalidDefinition : Json := .object [("error", .string "invalid_scenario_definition")]

/-- The evaluation throws no other error. -/
def runScenario (reportId : Uuid) (payload : Json) (scenario : Uuid × Json) : Program Unit :=
  match evaluateScenario scenario.2 payload with
  | .error _ => query (.upsertScenarioResult reportId scenario.1 .notRun invalidDefinition)
  | .ok none => return ()
  | .ok (some result) => query (.upsertScenarioResult reportId scenario.1 (if result.passed then .passed else .failed)
      result.json)

def runScenarios (reportId : Uuid) (payload : Json) : List (Uuid × Json) → Program Unit
  | [] => return ()
  | scenario :: rest => do
    runScenario reportId payload scenario
    runScenarios reportId payload rest

def processReport (eventId reportId : Uuid) : Program Unit := do
  let record ← query (.selectProcessingReportForUpdate reportId)
  match record with
  | none => throw (.error "report_not_processable")
  | some (projectId, payload) => do
    let scenarios ← query (.selectLatestScenarios projectId)
    runScenarios reportId payload scenarios
    let _ ← query (.updateReportCompleted reportId)
    let _ ← query (.updateReceiptCompleted eventId)
    return ()

inductive Processing
  | completed
  | duplicate
  | deadLetter
  deriving DecidableEq

def isRetryableFailure : Failure → Bool
  | .scenarioDefinition => false
  | .database error => ! ["22P02", "23503", "23514"].contains error.code
  | error => ! ["queue_event_mismatch", "report_not_processable"].contains error.message

def receiptAttempts (eventId : Uuid) : Program Nat := do
  let attempts ← primary (.selectAttempts eventId)
  return attempts.getD 1

def failReport (eventId reportId : Uuid) (deadLetter : Bool) (failureCode : String) : Program Unit := do
  let _ ← query (.updateReportFailed reportId deadLetter failureCode)
  let _ ← query (.updateReceiptFailed eventId deadLetter failureCode)
  return ()

def recordFailure (eventId reportId : Uuid) (maxAttempts : Nat) (error : Failure) :
    Program Processing := do
  let attempts ← receiptAttempts eventId
  let deadLetter : Bool := !isRetryableFailure error || maxAttempts ≤ attempts
  transaction (fun _ => .plain) (failReport eventId reportId deadLetter (safeFailureCode error))
  if deadLetter then return .deadLetter else throw error

def workOn (eventId reportId : Uuid) (maxAttempts : Nat) : Program Processing :=
  tryCatch (do
      transaction (fun _ => .plain) (processReport eventId reportId)
      return .completed)
    fun error => recordFailure eventId reportId maxAttempts error

def processReportEvent (event : ReportEvent) (maxAttempts : Nat) : Program Processing :=
  match event.schemaVersion, event.eventId, event.reportId with
  | 1, some eventId, some reportId => do
    let claim ← transaction .claim (claimReport eventId reportId maxAttempts)
    match claim with
    | .duplicate => return .duplicate
    | .deadLetter => return .deadLetter
    | .claimed => workOn eventId reportId maxAttempts
  | _, _, _ => throw (.error "Invalid queue event.")

end GhostApi.Hosted
