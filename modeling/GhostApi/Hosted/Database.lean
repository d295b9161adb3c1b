import GhostApi.Hosted.Statements

/-!
# The database of the hosted service and what is outside it

The statements as one engine. Outside are the random source and the queue:
a call of publishJSON is under way until it succeeds or fails, also where the
dispatcher that made it has stopped.
-/

namespace GhostApi.Hosted

open Js Sql

inductive Query
  | selectOrganizationForUpdate (organizationId : Uuid)
  | selectProjectOrganizationForUpdate (projectId : Uuid)
  | selectProjectOrganization (projectId : Uuid)
  | selectRole (organizationId : Uuid) (userId : String)
  | selectRoleForUpdate (organizationId : Uuid) (userId : String)
  | countOwners (organizationId : Uuid)
  | selectUsage (organizationId : Uuid) (resource : Resource)
  | insertUserQuota (userId : String)
  | selectUserQuotaForUpdate (userId : String)
  | countOrganizations (userId : String)
  | insertOrganization (id : Uuid) (slug name userId : String)
  | insertMembership (organizationId : Uuid) (userId : String) (role : MemberRole)
  | insertMembershipOrNothing (organizationId : Uuid) (userId : String) (role : MemberRole)
  | updateRole (organizationId : Uuid) (userId : String) (role : MemberRole)
  | deleteMembership (organizationId : Uuid) (userId : String)
  | insertAudit (id organizationId : Uuid) (actorId action resourceType resourceId : String) (metadata : Json)
  | insertIngestKeyAudit (id projectId : Uuid) (actorId action resourceId : String) (metadata : Json)
  | insertInvitation (id organizationId : Uuid) (email : String) (role : MemberRole) (tokenSha256 invitedBy : String)
      (expiresInDays : Nat)
  | selectExpiredInvitations (organizationId : Uuid) (email : String)
  | revokeInvitation (organizationId : Uuid) (email : String) (id : Uuid)
  | selectInvitationForUpdate (tokenSha256 : String)
  | updateInvitationAccepted (id : Uuid) (userId : String)
  | insertProject (id organizationId : Uuid) (slug name : String)
  | insertScenarioVersion (id projectId : Uuid) (scenarioKey : String) (version : Nat) (definition : Json)
      (definitionSha256 createdBy : String)
  | insertIngestKey (id projectId : Uuid) (name keyPrefix secretSha256 : String) (expiresInDays : Nat)
      (createdBy : String)
  | selectIngestKeyForUpdate (projectId keyId : Uuid)
  | revokeKey (projectId keyId : Uuid)
  | revokeActiveKey (projectId keyId : Uuid)
  | updateKeyUsed (projectId keyId : Uuid)
  | insertIdempotency (projectId : Uuid) (key requestSha256 : String) (reportId : Uuid) (retentionDays : Nat)
  | selectIdempotencyForUpdate (projectId : Uuid) (key : String)
  | insertReport (id projectId ingestKeyId : Uuid) (runId payloadSha256 : String) (payload : Json)
  | insertOutboxEvent (id reportId : Uuid)
  | selectExhaustedEvents (maxAttempts : Nat)
  | deadLetterEvent (maxAttempts : Nat) (id : Uuid)
  | failAcceptedReport (id : Uuid)
  | leaseEvents (limit maxAttempts : Nat)
  | updateEventDispatched (id : Uuid)
  | updateEventFailed (id : Uuid) (exhausted : Bool) (failureCode : String)
  | selectEventReportForUpdate (eventId : Uuid)
  | upsertReceipt (maxAttempts : Nat) (eventId : Uuid)
  | selectReceiptForUpdate (eventId : Uuid)
  | selectAttempts (eventId : Uuid)
  | updateReceiptExhausted (eventId : Uuid)
  | updateReportExhausted (id : Uuid)
  | updateReportProcessing (id : Uuid)
  | selectProcessingReportForUpdate (id : Uuid)
  | selectLatestScenarios (projectId : Uuid)
  | upsertScenarioResult (reportId scenarioVersionId : Uuid) (status : ResultStatus) (result : Json)
  | updateReportCompleted (id : Uuid)
  | updateReceiptCompleted (eventId : Uuid)
  | updateReportFailed (id : Uuid) (deadLetter : Bool) (failureCode : String)
  | updateReceiptFailed (eventId : Uuid) (deadLetter : Bool) (failureCode : String)
  | selectExpiredIdempotency
  | deleteIdempotency (projectId : Uuid) (key : String)
  | selectSettledReports (retentionDays : Nat)
  | deleteReport (retentionDays : Nat) (id : Uuid)
  | selectSettledEvents
  | deleteEvent (id : Uuid)
  | selectSettledReceipts
  | deleteReceipt (eventId : Uuid)
  | selectStaleInvitations
  | deleteInvitation (id : Uuid)
  | selectOldAudit (retentionDays : Nat)
  | deleteAudit (retentionDays : Nat) (id : Uuid)

abbrev Reply : Query → Type
  | .selectOrganizationForUpdate _ | .selectProjectOrganizationForUpdate _ | .selectProjectOrganization _ => Option Uuid
  | .selectRole _ _ | .selectRoleForUpdate _ _ => Option MemberRole
  | .countOwners _ | .countOrganizations _ | .insertInvitation _ _ _ _ _ _ _ | .insertIngestKey _ _ _ _ _ _ _ => Nat
  | .selectUsage _ _ => Option (Nat × Nat)
  | .insertUserQuota _ | .insertMembershipOrNothing _ _ _ | .insertIdempotency _ _ _ _ _ => Bool
  | .selectUserQuotaForUpdate _ => Option Nat
  | .insertOrganization _ _ _ _ | .insertMembership _ _ _ | .insertAudit _ _ _ _ _ _ _
  | .insertIngestKeyAudit _ _ _ _ _ _ | .insertProject _ _ _ _
  | .insertScenarioVersion _ _ _ _ _ _ _ | .insertReport _ _ _ _ _ _
  | .insertOutboxEvent _ _ | .upsertScenarioResult _ _ _ _ => Unit
  | .updateRole _ _ _ | .deleteMembership _ _ => Option Membership
  | .selectExpiredInvitations _ _ | .selectStaleInvitations => List Uuid
  | .revokeInvitation _ _ _ | .updateInvitationAccepted _ _ | .deleteInvitation _ => Option Invitation
  | .selectInvitationForUpdate _ => Option (Uuid × Invitation)
  | .selectIngestKeyForUpdate _ _ => Option Uuid
  | .revokeKey _ _ | .revokeActiveKey _ _ | .updateKeyUsed _ _ => Option IngestKey
  | .selectIdempotencyForUpdate _ _ => Option (Uuid × String)
  | .selectExhaustedEvents _ | .selectSettledReports _ | .selectSettledEvents | .selectSettledReceipts
  | .selectOldAudit _ => List Uuid
  | .deadLetterEvent _ _ | .updateEventDispatched _ | .updateEventFailed _ _ _ | .deleteEvent _ => Option OutboxEvent
  | .failAcceptedReport _ | .updateReportExhausted _ | .updateReportProcessing _ | .updateReportCompleted _
  | .updateReportFailed _ _ _ | .deleteReport _ _ => Option Report
  | .leaseEvents _ _ => List LeasedEvent
  | .selectEventReportForUpdate _ => Option Uuid
  | .upsertReceipt _ _ => Bool
  | .selectReceiptForUpdate _ => Option (JobStatus × Nat)
  | .selectAttempts _ => Option Nat
  | .updateReceiptExhausted _ | .updateReceiptCompleted _ | .updateReceiptFailed _ _ _ | .deleteReceipt _ =>
    Option JobReceipt
  | .selectProcessingReportForUpdate _ => Option (Uuid × Json)
  | .selectLatestScenarios _ => List (Uuid × Json)
  | .selectExpiredIdempotency => List (Uuid × String)
  | .deleteIdempotency _ _ => Option IdempotencyRecord
  | .deleteAudit _ _ => Option AuditEvent

def execute : (q : Query) → Nat → (Key → Bool) → Db → Result (Reply q)
  | .selectOrganizationForUpdate organizationId, _, _, db => selectOrganizationForUpdate db organizationId
  | .selectProjectOrganizationForUpdate projectId, _, _, db => selectProjectOrganizationForUpdate db projectId
  | .selectProjectOrganization projectId, _, _, db => selectProjectOrganization db projectId
  | .selectRole organizationId userId, _, _, db => selectRole db organizationId userId
  | .selectRoleForUpdate organizationId userId, _, _, db => selectRoleForUpdate db organizationId userId
  | .countOwners organizationId, _, _, db => countOwners db organizationId
  | .selectUsage organizationId resource, now, _, db => selectUsage db now organizationId resource
  | .insertUserQuota userId, _, _, db => insertUserQuota db userId
  | .selectUserQuotaForUpdate userId, _, _, db => selectUserQuotaForUpdate db userId
  | .countOrganizations userId, _, _, db => countOrganizations db userId
  | .insertOrganization id slug name userId, _, _, db => insertOrganization db id ⟨slug, name, some userId⟩
  | .insertMembership organizationId userId role, _, _, db => insertMembership db organizationId userId role
  | .insertMembershipOrNothing organizationId userId role, _, _, db =>
    insertMembershipOrNothing db organizationId userId role
  | .updateRole organizationId userId role, _, _, db => updateRole db organizationId userId role
  | .deleteMembership organizationId userId, _, _, db => deleteMembership db organizationId userId
  | .insertAudit id organizationId actorId action resourceType resourceId metadata, now, _, db =>
    insertAudit db id ⟨organizationId, actorId, action, resourceType, resourceId, metadata, now⟩
  | .insertIngestKeyAudit id projectId actorId action resourceId metadata, now, _, db =>
    insertIngestKeyAudit db now id projectId actorId action resourceId metadata
  | .insertInvitation id organizationId email role tokenSha256 invitedBy expiresInDays, now, _, db =>
    insertInvitation db id
      ⟨organizationId, lower email, role, tokenSha256, invitedBy, now + days expiresInDays, now, none, none, none⟩
  | .selectExpiredInvitations organizationId email, now, _, db => selectExpiredInvitations db now organizationId email
  | .revokeInvitation organizationId email id, now, _, db => revokeInvitation db now organizationId email id
  | .selectInvitationForUpdate tokenSha256, now, _, db => selectInvitationForUpdate db now tokenSha256
  | .updateInvitationAccepted id userId, now, _, db => updateInvitationAccepted db now id userId
  | .insertProject id organizationId slug name, _, _, db => insertProject db id ⟨organizationId, slug, name⟩
  | .insertScenarioVersion id projectId scenarioKey version definition definitionSha256 createdBy, _, _, db =>
    insertScenarioVersion db id ⟨projectId, scenarioKey, version, definition, definitionSha256, createdBy⟩
  | .insertIngestKey id projectId name keyPrefix secretSha256 expiresInDays createdBy, now, _, db =>
    insertIngestKey db now id
      ⟨projectId, name, keyPrefix, secretSha256, now + days expiresInDays, createdBy, none, none⟩
  | .selectIngestKeyForUpdate projectId keyId, _, _, db => selectIngestKeyForUpdate db projectId keyId
  | .revokeKey projectId keyId, now, _, db => revokeKey db now projectId keyId
  | .revokeActiveKey projectId keyId, now, _, db => revokeActiveKey db now projectId keyId
  | .updateKeyUsed projectId keyId, now, _, db => updateKeyUsed db now projectId keyId
  | .insertIdempotency projectId key requestSha256 reportId retentionDays, now, _, db =>
    insertIdempotency db now projectId key requestSha256 reportId retentionDays
  | .selectIdempotencyForUpdate projectId key, _, _, db => selectIdempotencyForUpdate db projectId key
  | .insertReport id projectId ingestKeyId runId payloadSha256 payload, now, _, db =>
    insertReport db id ⟨projectId, ingestKeyId, runId, payloadSha256, payload, now, .accepted, none, none⟩
  | .insertOutboxEvent id reportId, now, _, db => insertOutboxEvent db now id reportId
  | .selectExhaustedEvents maxAttempts, _, _, db => selectExhaustedEvents db maxAttempts
  | .deadLetterEvent maxAttempts id, now, _, db => deadLetterEvent db now maxAttempts id
  | .failAcceptedReport id, now, _, db => failAcceptedReport db now id
  | .leaseEvents limit maxAttempts, now, busy, db => leaseEvents db now busy limit maxAttempts
  | .updateEventDispatched id, now, _, db => updateEventDispatched db now id
  | .updateEventFailed id exhausted failureCode, now, _, db => updateEventFailed db now id exhausted failureCode
  | .selectEventReportForUpdate eventId, _, _, db => selectEventReportForUpdate db eventId
  | .upsertReceipt maxAttempts eventId, now, _, db => upsertReceipt db now maxAttempts eventId
  | .selectReceiptForUpdate eventId, _, _, db => selectReceiptForUpdate db eventId
  | .selectAttempts eventId, _, _, db => selectAttempts db eventId
  | .updateReceiptExhausted eventId, now, _, db => updateReceiptExhausted db now eventId
  | .updateReportExhausted id, now, _, db => updateReportExhausted db now id
  | .updateReportProcessing id, _, _, db => updateReportProcessing db id
  | .selectProcessingReportForUpdate id, _, _, db => selectProcessingReportForUpdate db id
  | .selectLatestScenarios projectId, _, _, db => selectLatestScenarios db projectId
  | .upsertScenarioResult reportId scenarioVersionId status result, now, _, db =>
    upsertScenarioResult db now reportId scenarioVersionId status result
  | .updateReportCompleted id, now, _, db => updateReportCompleted db now id
  | .updateReceiptCompleted eventId, now, _, db => updateReceiptCompleted db now eventId
  | .updateReportFailed id deadLetter failureCode, now, _, db => updateReportFailed db now id deadLetter failureCode
  | .updateReceiptFailed eventId deadLetter failureCode, now, _, db =>
    updateReceiptFailed db now eventId deadLetter failureCode
  | .selectExpiredIdempotency, now, _, db => selectExpiredIdempotency db now
  | .deleteIdempotency projectId key, now, _, db => deleteIdempotency db now projectId key
  | .selectSettledReports retentionDays, now, _, db => selectSettledReports db now retentionDays
  | .deleteReport retentionDays id, now, _, db => deleteReport db now retentionDays id
  | .selectSettledEvents, now, _, db => selectSettledEvents db now
  | .deleteEvent id, now, _, db => deleteEvent db now id
  | .selectSettledReceipts, now, _, db => selectSettledReceipts db now
  | .deleteReceipt eventId, now, _, db => deleteReceipt db now eventId
  | .selectStaleInvitations, now, _, db => selectStaleInvitations db now
  | .deleteInvitation id, now, _, db => deleteInvitation db now id
  | .selectOldAudit retentionDays, now, _, db => selectOldAudit db now retentionDays
  | .deleteAudit retentionDays id, now, _, db => deleteAudit db now retentionDays id

/-! ## Deferred constraints -/

/-- The row that a record refers to is there, and no record refers to a report that was deleted. -/
def keepsReferences (db : Db) : Key → Bool
  | .idempotency projectId key => match db.row (.idempotency projectId key) with
    | some (record : IdempotencyRecord) => present db (.report record.reportId)
    | none => true
  | .report id => present db (.report id) || db.count (refersTo id) == 0
  | _ => true

/-- The constraint trigger on memberships that were changed or deleted. -/
def keepsOwner (before after : Db) : Key → Bool
  | .membership organizationId userId => !present before (.membership organizationId userId) ||
    !present after (.organization organizationId) || 0 < after.count (isOwner organizationId)
  | _ => true

def ownerRequired : DatabaseError := ⟨"23514", "organization must retain an owner"⟩

def deferred (writes : List Write) (db : Db) : Option DatabaseError :=
  let after := db.apply writes
  if !writes.all (fun change => keepsReferences after change.key) then some foreignKeyViolation
  else if !writes.all (fun change => keepsOwner db after change.key) then some ownerRequired
  else none

theorem deferred_none {writes : List Write} {db : Db} (h : deferred writes db = none) :
    (∀ change ∈ writes, keepsReferences (db.apply writes) change.key = true) ∧
      ∀ change ∈ writes, keepsOwner db (db.apply writes) change.key = true := by
  unfold deferred at h
  dsimp only at h
  split at h
  · cases h
  · rename_i hReferences
    split at h
    · cases h
    · rename_i hOwners
      exact ⟨by simpa using hReferences, by simpa using hOwners⟩

theorem deferred_of_keeps {writes : List Write} {db : Db}
    (hReferences : ∀ change ∈ writes, keepsReferences (db.apply writes) change.key = true)
    (hOwners : ∀ change ∈ writes, keepsOwner db (db.apply writes) change.key = true) : deferred writes db = none := by
  unfold deferred
  dsimp only
  rw [if_neg (by simpa using hReferences), if_neg (by simpa using hOwners)]

/-! ## Outside the database -/

abbrev ClientId := Nat

inductive Acceptance
  | accepted
  | duplicate
  deriving DecidableEq

/-- A committed call of acceptReport, or a committed cleanup. -/
inductive JournalEntry
  | report (projectId : Uuid) (key : String) (report : Json) (reportId : Uuid) (status : Acceptance)
  | cleanup

inductive CallState
  | pending
  | succeeded
  | failed
  deriving DecidableEq

/-- A call of publishJSON for the attempt of an event. -/
structure PublishCall where
  eventId : Uuid
  attempt : Nat
  state : CallState
  deriving DecidableEq

/-- A dispatcher that has leased an event and has not yet called publishJSON for it. -/
structure Lease where
  holder : ClientId
  eventId : Uuid
  attempt : Nat
  deriving DecidableEq

structure World where
  journal : List JournalEntry := []
  leases : List Lease := []
  calls : List PublishCall := []

inductive External
  | randomUUID
  | randomText
  | publish (event : LeasedEvent)
  | published (event : LeasedEvent)

abbrev Answer : External → Type
  | .randomUUID => Uuid
  | .randomText => String
  | .publish _ | .published _ => Unit

inductive Chance
  | uuid (id : Uuid)
  | text (s : String)
  | call
  | settle (eventId : Uuid) (attempt : Nat) (success : Bool)
  | throws (message : String)

def World.publish (world : World) (i : ClientId) (event : LeasedEvent) : World where
  journal := world.journal
  leases := world.leases.filter fun lease =>
    !(lease.holder == i && lease.eventId == event.id && lease.attempt == event.attempts)
  calls := world.calls ++ [⟨event.id, event.attempts, .pending⟩]

def World.settle (world : World) (eventId : Uuid) (attempt : Nat) (success : Bool) : World :=
  { world with calls := world.calls.map fun call =>
      if call.eventId = eventId ∧ call.attempt = attempt ∧ call.state = .pending then
        { call with state := if success then .succeeded else .failed }
      else call }

def World.hasCall (world : World) (eventId : Uuid) (attempt : Nat) (state : CallState) : Bool :=
  world.calls.any fun call => call.eventId == eventId && call.attempt == attempt && call.state == state

def answer : (x : External) → ClientId → Chance → World → Option (Except Failure (Answer x) × World)
  | .randomUUID, _, .uuid id, world => some (.ok id, world)
  | .randomText, _, .text s, world => some (.ok s, world)
  | .publish event, i, .call, world => some (.ok (), world.publish i event)
  | .published event, _, .call, world =>
    if world.hasCall event.id event.attempts .succeeded then some (.ok (), world) else none
  | .published event, _, .throws message, world =>
    if world.hasCall event.id event.attempts .failed then some (.error (.publish message), world) else none
  | _, _, _, _ => none

/-- A call of publishJSON ends whenever the queue has done with it. -/
def drift : Chance → World → Option World
  | .settle eventId attempt success, world => some (world.settle eventId attempt success)
  | _, _ => none

inductive Claim
  | claimed
  | duplicate
  | deadLetter
  deriving DecidableEq

inductive Note
  | plain
  | claim (claim : Claim)
  | entry (entry : JournalEntry)
  | leased (events : List LeasedEvent)

def record : Note → ClientId → World → World
  | .plain, _, world => world
  | .claim _, _, world => world
  | .entry entry, _, world => { world with journal := world.journal ++ [entry] }
  | .leased events, i, world => { world with
      leases := world.leases ++ events.map fun event => ⟨i, event.id, event.attempts⟩ }

def halt (i : ClientId) (world : World) : World :=
  { world with leases := world.leases.filter fun lease => lease.holder != i }

abbrev Server := Sql.Server Row ClientId World

abbrev Program (α : Type) := Routine Failure Note Reply Answer α

abbrev query (q : Query) : Program (Reply q) := Sql.query q

abbrev external (x : External) : Program (Answer x) := Sql.external x

abbrev transaction {α : Type} (note : α → Note) (operation : Program α) : Program α := Sql.transaction note operation

abbrev primary (q : Query) : Program (Reply q) := Sql.statement .plain q

def engine : Engine Row ClientId World DatabaseError Failure Chance Note Reply Answer where
  execute := execute
  deferred := deferred
  inFailedTransaction := ⟨"25P02", "current transaction is aborted, commands ignored until end of transaction block"⟩
  raise := .database
  answer := answer
  drift := drift
  record := record
  halt := halt

end GhostApi.Hosted
