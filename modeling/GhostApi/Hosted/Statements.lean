import GhostApi.Hosted.Schema

/-!
# The SQL statements of the hosted service

Each statement is a function of the rows that it sees. It locks the rows that
it changes or selects for update, and the entries of the unique indexes that
it looks at in order to insert. Where a statement changes several rows, one
statement finds their keys and another changes one row if it still qualifies.
The ids that column defaults draw are arguments.
-/

namespace GhostApi.Hosted

open Js Sql

def seconds (n : Nat) : Nat := n * 1000

def days (n : Nat) : Nat := n * 86400000

abbrev Result (α : Type) := Outcome Row DatabaseError α

def uniqueViolation : DatabaseError := ⟨"23505", "duplicate key value violates unique constraint"⟩

def foreignKeyViolation : DatabaseError := ⟨"23503", "insert or update on table violates foreign key constraint"⟩

def checkViolation : DatabaseError := ⟨"23514", "new row for relation violates check constraint"⟩

def unsupportedCharacter : DatabaseError := ⟨"22P05", "unsupported Unicode escape sequence"⟩

def read {α : Type} (a : α) : Result α := { reply := .ok a }

def lockRow {α : Type} (k : Key) (a : α) : Result α := { locks := [k], reply := .ok a }

def write {α : Type} (writes : List Write) (a : α) : Result α := { writes, reply := .ok a }

def set (k : Key) (v : Row k) : Write := ⟨k, some v⟩

def remove (k : Key) : Write := ⟨k, none⟩

def reject {α : Type} (error : DatabaseError) : Result α := { reply := .error error }

/-- A select for update of the row under a key, where the row qualifies. -/
def selectForUpdate {α : Type} (db : Db) (k : Key) (qualifies : Row k → Bool) (found : Row k → α) : Result (Option α) :=
  match db.row k with
  | some v => if qualifies v then lockRow k (some (found v)) else read none
  | none => read none

/-- An update or a delete of the row under a key, where the row qualifies. -/
def update (db : Db) (k : Key) (qualifies : Row k → Bool) (change : Row k → List Write) : Result (Option (Row k)) :=
  match db.row k with
  | some v => if qualifies v then { locks := [k], writes := change v, reply := .ok (some v) } else read none
  | none => read none

def present (db : Db) (k : Key) : Bool := (db.row k).isSome

/-- An insert of a row and its entries in unique indexes, with the rows that it refers to. -/
def insert (db : Db) (references : List Key) (checks : Bool) (entries : List Write) : Result Unit :=
  let keys := entries.map (·.key)
  if !checks then reject checkViolation
  else if keys.any (present db) then { locks := keys, reply := .error uniqueViolation }
  else if !references.all (present db) then reject foreignKeyViolation
  else write entries ()

def insertOrNothing (db : Db) (references : List Key) (k : Key) (v : Row k) : Result Bool :=
  if present db k then read false
  else if !references.all (present db) then reject foreignKeyViolation
  else write [set k v] true

/-! ## Organizations, members and invitations -/

def isSlug (slug : String) : Bool := match slug.toList with
  | [] => false
  | c :: cs => (isDigit c || isLower c) && cs.all (fun c => isDigit c || isLower c || c == '-') &&
    1 ≤ cs.length && cs.length ≤ 62

def hasLength (low high : Nat) (s : String) : Bool := low ≤ s.toList.length && s.toList.length ≤ high

def lower (s : String) : String := s.map Char.toLower

def selectOrganizationForUpdate (db : Db) (organizationId : Uuid) : Result (Option Uuid) :=
  selectForUpdate db (.organization organizationId) (fun _ => true) fun _ => organizationId

def selectProjectOrganizationForUpdate (db : Db) (projectId : Uuid) : Result (Option Uuid) :=
  match db.row (.project projectId) with
  | some (project : Project) =>
    selectForUpdate db (.organization project.organizationId) (fun _ => true) fun _ => project.organizationId
  | none => read none

def selectProjectOrganization (db : Db) (projectId : Uuid) : Result (Option Uuid) :=
  read ((db.row (.project projectId)).map Project.organizationId)

def selectRole (db : Db) (organizationId : Uuid) (userId : String) : Result (Option MemberRole) :=
  read ((db.row (.membership organizationId userId)).map Membership.role)

def selectRoleForUpdate (db : Db) (organizationId : Uuid) (userId : String) : Result (Option MemberRole) :=
  selectForUpdate db (.membership organizationId userId) (fun _ => true) Membership.role

def isOwner (organizationId : Uuid) : (k : Key) → Row k → Bool
  | .membership o _, member => o == organizationId && member.role == MemberRole.owner
  | _, _ => false

def countOwners (db : Db) (organizationId : Uuid) : Result Nat := read (db.count (isOwner organizationId))

inductive Resource
  | projects
  | members
  | invitations
  | scenarios
  | keys
  | reports
  deriving DecidableEq

def Resource.text : Resource → String
  | .projects => "projects"
  | .members => "members"
  | .invitations => "invitations"
  | .scenarios => "scenarios"
  | .keys => "keys"
  | .reports => "reports"

def OrganizationQuota.of (quota : OrganizationQuota) : Resource → Nat
  | .projects => quota.projects
  | .members => quota.members
  | .invitations => quota.invitations
  | .scenarios => quota.scenarios
  | .keys => quota.keys
  | .reports => quota.reports

def belongs (db : Db) (organizationId projectId : Uuid) : Bool :=
  (db.row (.project projectId)).any fun (project : Project) => project.organizationId == organizationId

def isActiveInvitation (now : Nat) (invitation : Invitation) : Bool :=
  invitation.acceptedAt == none && invitation.revokedAt == none && now < invitation.expiresAt

/-- The rows that count against a quota of an organization at a time. -/
def counts (db : Db) (organizationId : Uuid) (now : Nat) : Resource → (k : Key) → Row k → Bool
  | .projects, .project _, project => project.organizationId == organizationId
  | .members, .membership o _, _ => o == organizationId
  | .invitations, .invitation _, invitation =>
    invitation.organizationId == organizationId && isActiveInvitation now invitation
  | .scenarios, .scenarioVersion _, scenario => belongs db organizationId scenario.projectId
  | .keys, .ingestKey _, ingestKey => belongs db organizationId ingestKey.projectId &&
    ingestKey.revokedAt == none && now < ingestKey.expiresAt
  | .reports, .report _, report => belongs db organizationId report.projectId
  | _, _, _ => false

def usage (db : Db) (organizationId : Uuid) (now : Nat) (resource : Resource) : Nat :=
  db.count (counts db organizationId now resource)

def selectUsage (db : Db) (now : Nat) (organizationId : Uuid) (resource : Resource) : Result (Option (Nat × Nat)) :=
  read ((db.row (.organizationQuota organizationId)).map fun (quota : OrganizationQuota) =>
    (usage db organizationId now resource, quota.of resource))

def insertUserQuota (db : Db) (userId : String) : Result Bool :=
  insertOrNothing db [] (.userQuota userId) (5 : Nat)

def selectUserQuotaForUpdate (db : Db) (userId : String) : Result (Option Nat) :=
  selectForUpdate db (.userQuota userId) (fun _ => true) fun quota => quota

def isCreatedBy (userId : String) : (k : Key) → Row k → Bool
  | .organization _, organization => organization.createdBy == some userId
  | _, _ => false

def countOrganizations (db : Db) (userId : String) : Result Nat := read (db.count (isCreatedBy userId))

def insertOrganization (db : Db) (id : Uuid) (organization : Organization) : Result Unit :=
  insert db [] (isSlug organization.slug && hasLength 1 120 organization.name)
    ([set (.organization id) organization, set (.organizationSlug organization.slug) id] ++
      if present db (.organizationQuota id) then [] else [set (.organizationQuota id) ({} : OrganizationQuota)])

def insertMembership (db : Db) (organizationId : Uuid) (userId : String) (role : MemberRole) : Result Unit :=
  insert db [.organization organizationId] true [set (.membership organizationId userId) (⟨role⟩ : Membership)]

def insertMembershipOrNothing (db : Db) (organizationId : Uuid) (userId : String) (role : MemberRole) : Result Bool :=
  insertOrNothing db [.organization organizationId] (.membership organizationId userId) (⟨role⟩ : Membership)

def updateRole (db : Db) (organizationId : Uuid) (userId : String) (role : MemberRole) :
    Result (Option Membership) :=
  update db (.membership organizationId userId) (fun _ => true) fun _ =>
    [set (.membership organizationId userId) (⟨role⟩ : Membership)]

def deleteMembership (db : Db) (organizationId : Uuid) (userId : String) : Result (Option Membership) :=
  update db (.membership organizationId userId) (fun _ => true) fun _ => [remove (.membership organizationId userId)]

def insertAudit (db : Db) (id : Uuid) (event : AuditEvent) : Result Unit :=
  insert db [.organization event.organizationId] true [set (.auditEvent id) event]

/-- The audit event of an ingest key, for the organization of its project. -/
def insertIngestKeyAudit (db : Db) (now : Nat) (id projectId : Uuid) (actorId action resourceId : String)
    (metadata : Json) : Result Unit :=
  match db.row (.project projectId) with
  | some (project : Project) =>
    insertAudit db id ⟨project.organizationId, actorId, action, "ci_ingest_key", resourceId, metadata, now⟩
  | none => read ()

def invitationEntries (id : Uuid) (invitation : Invitation) : List Write :=
  [set (.invitation id) invitation, set (.invitationToken invitation.tokenSha256) id,
   set (.activeInvitation invitation.organizationId (lower invitation.email)) id]

def insertInvitation (db : Db) (id : Uuid) (invitation : Invitation) : Result Nat :=
  (insert db [.organization invitation.organizationId]
    (hasLength 3 320 invitation.email && invitation.role != .owner && invitation.createdAt < invitation.expiresAt)
    (invitationEntries id invitation)).returning invitation.expiresAt

def isExpiredInvitation (now : Nat) (organizationId : Uuid) (email : String) (invitation : Invitation) : Bool :=
  invitation.organizationId == organizationId && lower invitation.email == lower email &&
    invitation.acceptedAt == none && invitation.revokedAt == none && invitation.expiresAt ≤ now

def selectExpiredInvitations (db : Db) (now : Nat) (organizationId : Uuid) (email : String) : Result (List Uuid) :=
  read (db.select fun
    | .invitation id, invitation => if isExpiredInvitation now organizationId email invitation then some id else none
    | _, _ => none)

def revokeInvitation (db : Db) (now : Nat) (organizationId : Uuid) (email : String) (id : Uuid) :
    Result (Option Invitation) :=
  update db (.invitation id) (isExpiredInvitation now organizationId email) fun (invitation : Invitation) =>
    [set (.invitation id) { invitation with revokedAt := some now },
     remove (.activeInvitation invitation.organizationId (lower invitation.email))]

def selectInvitationForUpdate (db : Db) (now : Nat) (tokenSha256 : String) : Result (Option (Uuid × Invitation)) :=
  match db.row (.invitationToken tokenSha256) with
  | some (id : Uuid) => selectForUpdate db (.invitation id) (isActiveInvitation now) fun invitation => (id, invitation)
  | none => read none

def updateInvitationAccepted (db : Db) (now : Nat) (id : Uuid) (userId : String) : Result (Option Invitation) :=
  update db (.invitation id) (fun _ => true) fun (invitation : Invitation) =>
    [set (.invitation id) { invitation with acceptedAt := some now, acceptedBy := some userId },
     remove (.activeInvitation invitation.organizationId (lower invitation.email))]

/-! ## Projects, scenarios and ingest keys -/

def insertProject (db : Db) (id : Uuid) (project : Project) : Result Unit :=
  insert db [.organization project.organizationId] (isSlug project.slug && hasLength 1 120 project.name)
    [set (.project id) project, set (.projectSlug project.organizationId project.slug) id]

def isScenarioKey (key : String) : Bool := match key.toList with
  | [] => false
  | c :: cs => (isDigit c || isLower c) &&
    cs.all (fun c => isDigit c || isLower c || c == '.' || c == '_' || c == '-') && 1 ≤ cs.length && cs.length ≤ 126

def isJsonObject : Json → Bool
  | .object _ => true
  | _ => false

def insertScenarioVersion (db : Db) (id : Uuid) (scenario : ScenarioVersion) : Result Unit :=
  insert db [.project scenario.projectId]
    (isScenarioKey scenario.scenarioKey && 0 < scenario.version && isJsonObject scenario.definition)
    [set (.scenarioVersion id) scenario,
     set (.scenarioNumber scenario.projectId scenario.scenarioKey scenario.version) id,
     set (.scenarioContent scenario.projectId scenario.scenarioKey scenario.definitionSha256) id]

def insertIngestKey (db : Db) (now : Nat) (id : Uuid) (ingestKey : IngestKey) : Result Nat :=
  (insert db [.project ingestKey.projectId] (hasLength 1 80 ingestKey.name && now < ingestKey.expiresAt)
    [set (.ingestKey id) ingestKey, set (.ingestKeyPrefix ingestKey.keyPrefix) id]).returning ingestKey.expiresAt

def selectIngestKeyForUpdate (db : Db) (projectId keyId : Uuid) : Result (Option Uuid) :=
  selectForUpdate db (.ingestKey keyId)
    (fun (ingestKey : IngestKey) => ingestKey.projectId == projectId && ingestKey.revokedAt == none) fun _ => keyId

def revokeKey (db : Db) (now : Nat) (projectId keyId : Uuid) : Result (Option IngestKey) :=
  update db (.ingestKey keyId) (fun (ingestKey : IngestKey) => ingestKey.projectId == projectId)
    fun (ingestKey : IngestKey) => [set (.ingestKey keyId) { ingestKey with revokedAt := some now }]

def revokeActiveKey (db : Db) (now : Nat) (projectId keyId : Uuid) : Result (Option IngestKey) :=
  update db (.ingestKey keyId)
    (fun (ingestKey : IngestKey) => ingestKey.projectId == projectId && ingestKey.revokedAt == none)
    fun (ingestKey : IngestKey) => [set (.ingestKey keyId) { ingestKey with revokedAt := some now }]

def updateKeyUsed (db : Db) (now : Nat) (projectId keyId : Uuid) : Result (Option IngestKey) :=
  update db (.ingestKey keyId) (fun (ingestKey : IngestKey) => ingestKey.projectId == projectId)
    fun (ingestKey : IngestKey) => [set (.ingestKey keyId) { ingestKey with lastUsedAt := some now }]

/-! ## Reports -/

mutual
def hasNul : Json → Bool
  | .string s => s.toList.contains '\x00'
  | .array items => itemsHaveNul items
  | .object fields => fieldsHaveNul fields
  | _ => false

def itemsHaveNul : List Json → Bool
  | [] => false
  | item :: rest => hasNul item || itemsHaveNul rest

def fieldsHaveNul : List (String × Json) → Bool
  | [] => false
  | (key, value) :: rest => key.toList.contains '\x00' || hasNul value || fieldsHaveNul rest
end

def insertIdempotency (db : Db) (now : Nat) (projectId : Uuid) (key requestSha256 : String) (reportId : Uuid)
    (retentionDays : Nat) : Result Bool :=
  insertOrNothing db [.project projectId] (.idempotency projectId key)
    (⟨requestSha256, reportId, now, now + days retentionDays⟩ : IdempotencyRecord)

def selectIdempotencyForUpdate (db : Db) (projectId : Uuid) (key : String) : Result (Option (Uuid × String)) :=
  selectForUpdate db (.idempotency projectId key) (fun _ => true)
    fun (record : IdempotencyRecord) => (record.reportId, record.requestSha256)

def insertReport (db : Db) (id : Uuid) (report : Report) : Result Unit :=
  if hasNul report.payload then reject unsupportedCharacter
  else insert db [.project report.projectId, .ingestKey report.ingestKeyId] (hasLength 1 128 report.runId)
    [set (.report id) report, set (.reportContent report.projectId report.runId report.payloadSha256) id]

def insertOutboxEvent (db : Db) (now : Nat) (id reportId : Uuid) : Result Unit :=
  insert db [.report reportId] true
    [set (.outboxEvent id) (⟨reportId, ⟨1, some id, some reportId⟩, now, now, .pending, none, none, none, 0, none⟩ : OutboxEvent)]

/-! ## The dispatcher -/

def isExhausted (maxAttempts : Nat) (event : OutboxEvent) : Bool :=
  event.dispatchedAt == none && event.status != .deadLetter && maxAttempts ≤ event.attempts

def selectExhaustedEvents (db : Db) (maxAttempts : Nat) : Result (List Uuid) :=
  read (db.select fun
    | .outboxEvent id, event => if isExhausted maxAttempts event then some id else none
    | _, _ => none)

def deadLetterEvent (db : Db) (now maxAttempts : Nat) (id : Uuid) : Result (Option OutboxEvent) :=
  update db (.outboxEvent id) (isExhausted maxAttempts) fun (event : OutboxEvent) =>
    [set (.outboxEvent id) { event with
      status := .deadLetter, deadLetteredAt := some now, leaseExpiresAt := none,
      lastError := some (event.lastError.getD "dispatch_attempts_exhausted") }]

def failAcceptedReport (db : Db) (now : Nat) (id : Uuid) : Result (Option Report) :=
  update db (.report id) (fun (report : Report) => report.status == .accepted) fun (report : Report) =>
    [set (.report id) { report with
      status := .failed, completedAt := some now, failureCode := some "dispatch_attempts_exhausted" }]

def isDue (now maxAttempts : Nat) (event : OutboxEvent) : Bool :=
  event.dispatchedAt == none && event.availableAt ≤ now && event.attempts < maxAttempts &&
    (event.status == .pending || event.status == .leased && event.leaseExpiresAt.any (· < now))

structure LeasedEvent where
  id : Uuid
  payload : ReportEvent
  attempts : Nat

def OutboxEvent.leased (event : OutboxEvent) (now : Nat) : OutboxEvent :=
  { event with status := .leased, leaseExpiresAt := some (now + seconds 60), attempts := event.attempts + 1 }

/-- The due events that nobody has locked, the oldest first. -/
def leaseEvents (db : Db) (now : Nat) (busy : Key → Bool) (limit maxAttempts : Nat) : Result (List LeasedEvent) :=
  let due : List (Uuid × OutboxEvent) := db.select fun
    | .outboxEvent id, event => if isDue now maxAttempts event && !busy (.outboxEvent id) then some (id, event) else none
    | _, _ => none
  let picked := (due.mergeSort fun a b => a.2.createdAt ≤ b.2.createdAt).take limit
  write (picked.map fun (id, event) => set (.outboxEvent id) (event.leased now))
    (picked.map fun (id, event) => ⟨id, event.payload, event.attempts + 1⟩)

def updateEventDispatched (db : Db) (now : Nat) (id : Uuid) : Result (Option OutboxEvent) :=
  update db (.outboxEvent id) (fun _ => true) fun (event : OutboxEvent) =>
    [set (.outboxEvent id) { event with
      status := .dispatched, dispatchedAt := some now, leaseExpiresAt := none, lastError := none }]

def updateEventFailed (db : Db) (now : Nat) (id : Uuid) (exhausted : Bool) (failureCode : String) :
    Result (Option OutboxEvent) :=
  update db (.outboxEvent id) (fun _ => true) fun (event : OutboxEvent) =>
    [set (.outboxEvent id) { event with
      status := if exhausted then .deadLetter else .pending
      leaseExpiresAt := none
      lastError := some failureCode
      deadLetteredAt := if exhausted then some now else none
      availableAt := if exhausted then event.availableAt else now + seconds (min 300 (2 ^ event.attempts)) }]

/-! ## The report worker -/

def selectEventReportForUpdate (db : Db) (eventId : Uuid) : Result (Option Uuid) :=
  selectForUpdate db (.outboxEvent eventId) (fun _ => true) OutboxEvent.aggregateId

def JobReceipt.isClaimable (receipt : JobReceipt) (now maxAttempts : Nat) : Bool :=
  (receipt.status == .processing && receipt.leaseExpiresAt.any (· < now) || receipt.status == .failed) &&
    receipt.attempts < maxAttempts

/-- The upsert locks the row that is there also where it leaves it as it is. -/
def upsertReceipt (db : Db) (now maxAttempts : Nat) (eventId : Uuid) : Result Bool :=
  match db.row (.jobReceipt eventId) with
  | none =>
    if present db (.outboxEvent eventId) then
      write [set (.jobReceipt eventId) (⟨.processing, some (now + seconds 300), 1, none, none, none⟩ : JobReceipt)] true
    else reject foreignKeyViolation
  | some (receipt : JobReceipt) =>
    if receipt.isClaimable now maxAttempts then
      write [set (.jobReceipt eventId) { receipt with
        status := .processing, leaseExpiresAt := some (now + seconds 300), attempts := receipt.attempts + 1,
        failureCode := none, failedAt := none }] true
    else lockRow (.jobReceipt eventId) false

def selectReceiptForUpdate (db : Db) (eventId : Uuid) : Result (Option (JobStatus × Nat)) :=
  selectForUpdate db (.jobReceipt eventId) (fun _ => true)
    fun (receipt : JobReceipt) => (receipt.status, receipt.attempts)

def selectAttempts (db : Db) (eventId : Uuid) : Result (Option Nat) :=
  read ((db.row (.jobReceipt eventId)).map JobReceipt.attempts)

def updateReceiptExhausted (db : Db) (now : Nat) (eventId : Uuid) : Result (Option JobReceipt) :=
  update db (.jobReceipt eventId) (fun _ => true) fun (receipt : JobReceipt) =>
    [set (.jobReceipt eventId) { receipt with
      status := .deadLetter, failedAt := some now,
      failureCode := some (receipt.failureCode.getD "worker_attempts_exhausted") }]

def updateReportExhausted (db : Db) (now : Nat) (id : Uuid) : Result (Option Report) :=
  update db (.report id) (fun _ => true) fun (report : Report) =>
    [set (.report id) { report with
      status := .failed, completedAt := some now, failureCode := some "worker_attempts_exhausted" }]

def updateReportProcessing (db : Db) (id : Uuid) : Result (Option Report) :=
  update db (.report id) (fun (report : Report) => report.status == .accepted || report.status == .failed)
    fun (report : Report) => [set (.report id) { report with status := .processing, failureCode := none }]

def selectProcessingReportForUpdate (db : Db) (id : Uuid) : Result (Option (Uuid × Json)) :=
  selectForUpdate db (.report id) (fun (report : Report) => report.status == .processing)
    fun (report : Report) => (report.projectId, report.payload)

def scenariosOf (db : Db) (projectId : Uuid) : List (Uuid × ScenarioVersion) :=
  db.select fun
    | .scenarioVersion id, scenario => if scenario.projectId == projectId then some (id, scenario) else none
    | _, _ => none

/-- The latest version of each scenario of a project, in the order of their keys. -/
def selectLatestScenarios (db : Db) (projectId : Uuid) : Result (List (Uuid × Json)) :=
  let scenarios := scenariosOf db projectId
  let latest := scenarios.filter fun (_, scenario) => scenarios.all fun (_, other) =>
    other.scenarioKey != scenario.scenarioKey || other.version ≤ scenario.version
  read ((latest.mergeSort fun a b => a.2.scenarioKey ≤ b.2.scenarioKey).map fun (id, scenario) => (id, scenario.definition))

def upsertScenarioResult (db : Db) (now : Nat) (reportId scenarioVersionId : Uuid) (status : ResultStatus)
    (result : Json) : Result Unit :=
  if [Key.report reportId, Key.scenarioVersion scenarioVersionId].all (present db) then
    if hasNul result then reject unsupportedCharacter
    else write [set (.scenarioResult reportId scenarioVersionId) (⟨status, result, now⟩ : ScenarioResult)] ()
  else reject foreignKeyViolation

def updateReportCompleted (db : Db) (now : Nat) (id : Uuid) : Result (Option Report) :=
  update db (.report id) (fun _ => true) fun (report : Report) =>
    [set (.report id) { report with status := .completed, completedAt := some now, failureCode := none }]

def updateReceiptCompleted (db : Db) (now : Nat) (eventId : Uuid) : Result (Option JobReceipt) :=
  update db (.jobReceipt eventId) (fun _ => true) fun (receipt : JobReceipt) =>
    [set (.jobReceipt eventId) { receipt with
      status := .completed, completedAt := some now, leaseExpiresAt := none, failureCode := none }]

def updateReportFailed (db : Db) (now : Nat) (id : Uuid) (deadLetter : Bool) (failureCode : String) :
    Result (Option Report) :=
  update db (.report id) (fun _ => true) fun (report : Report) =>
    [set (.report id) { report with
      status := if deadLetter then .failed else .accepted
      completedAt := if deadLetter then some now else none
      failureCode := some failureCode }]

def updateReceiptFailed (db : Db) (now : Nat) (eventId : Uuid) (deadLetter : Bool) (failureCode : String) :
    Result (Option JobReceipt) :=
  update db (.jobReceipt eventId) (fun _ => true) fun (receipt : JobReceipt) =>
    [set (.jobReceipt eventId) { receipt with
      status := if deadLetter then .deadLetter else .failed
      failedAt := some now, leaseExpiresAt := none, failureCode := some failureCode }]

/-! ## Cleanup -/

def selectExpiredIdempotency (db : Db) (now : Nat) : Result (List (Uuid × String)) :=
  read (db.select fun
    | .idempotency projectId key, record => if record.expiresAt < now then some (projectId, key) else none
    | _, _ => none)

def deleteIdempotency (db : Db) (now : Nat) (projectId : Uuid) (key : String) : Result (Option IdempotencyRecord) :=
  update db (.idempotency projectId key) (fun (record : IdempotencyRecord) => record.expiresAt < now)
    fun _ => [remove (.idempotency projectId key)]

def isSettledReport (now retentionDays : Nat) (report : Report) : Bool :=
  (report.status == .completed || report.status == .failed) && report.completedAt.any (· + days retentionDays < now)

def refersTo (reportId : Uuid) : (k : Key) → Row k → Bool
  | .idempotency _ _, record => record.reportId == reportId
  | _, _ => false

def selectSettledReports (db : Db) (now retentionDays : Nat) : Result (List Uuid) :=
  read (db.select fun
    | .report id, report =>
      if isSettledReport now retentionDays report && db.count (refersTo id) == 0 then some id else none
    | _, _ => none)

def eventRows (id : Uuid) : List Write := [remove (.jobReceipt id), remove (.outboxEvent id)]

def cascadeReport (db : Db) (id : Uuid) : List Write :=
  let events : List Uuid := db.select fun
    | .outboxEvent eventId, event => if event.aggregateId == id then some eventId else none
    | _, _ => none
  let results : List Write := db.select fun
    | .scenarioResult reportId scenarioVersionId, _ =>
      if reportId == id then some (remove (.scenarioResult reportId scenarioVersionId)) else none
    | _, _ => none
  events.flatMap eventRows ++ results

def deleteReport (db : Db) (now retentionDays : Nat) (id : Uuid) : Result (Option Report) :=
  update db (.report id) (isSettledReport now retentionDays) fun (report : Report) =>
    [remove (.report id), remove (.reportContent report.projectId report.runId report.payloadSha256)] ++
      cascadeReport db id

def isSettledEvent (now : Nat) (event : OutboxEvent) : Bool :=
  (event.dispatchedAt <|> event.deadLetteredAt).any (· + days 30 < now)

def selectSettledEvents (db : Db) (now : Nat) : Result (List Uuid) :=
  read (db.select fun
    | .outboxEvent id, event => if isSettledEvent now event then some id else none
    | _, _ => none)

def deleteEvent (db : Db) (now : Nat) (id : Uuid) : Result (Option OutboxEvent) :=
  update db (.outboxEvent id) (isSettledEvent now) fun _ => eventRows id

def isSettledReceipt (now : Nat) (receipt : JobReceipt) : Bool :=
  (receipt.completedAt <|> receipt.failedAt).any (· + days 30 < now)

def selectSettledReceipts (db : Db) (now : Nat) : Result (List Uuid) :=
  read (db.select fun
    | .jobReceipt eventId, receipt => if isSettledReceipt now receipt then some eventId else none
    | _, _ => none)

def deleteReceipt (db : Db) (now : Nat) (eventId : Uuid) : Result (Option JobReceipt) :=
  update db (.jobReceipt eventId) (isSettledReceipt now) fun _ => [remove (.jobReceipt eventId)]

def isStaleInvitation (now : Nat) (invitation : Invitation) : Bool :=
  (invitation.expiresAt < now || invitation.revokedAt != none || invitation.acceptedAt != none) &&
    invitation.createdAt + days 30 < now

def selectStaleInvitations (db : Db) (now : Nat) : Result (List Uuid) :=
  read (db.select fun
    | .invitation id, invitation => if isStaleInvitation now invitation then some id else none
    | _, _ => none)

/-- An invitation that was neither accepted nor revoked still has its entry among the active ones. -/
def deleteInvitation (db : Db) (now : Nat) (id : Uuid) : Result (Option Invitation) :=
  update db (.invitation id) (isStaleInvitation now) fun (invitation : Invitation) =>
    [remove (.invitation id), remove (.invitationToken invitation.tokenSha256)] ++
      if invitation.acceptedAt == none && invitation.revokedAt == none then
        [remove (.activeInvitation invitation.organizationId (lower invitation.email))]
      else []

def selectOldAudit (db : Db) (now retentionDays : Nat) : Result (List Uuid) :=
  read (db.select fun
    | .auditEvent id, event => if event.occurredAt + days retentionDays < now then some id else none
    | _, _ => none)

def deleteAudit (db : Db) (now retentionDays : Nat) (id : Uuid) : Result (Option AuditEvent) :=
  update db (.auditEvent id) (fun (event : AuditEvent) => event.occurredAt + days retentionDays < now)
    fun _ => [remove (.auditEvent id)]

/-! ## What the statements do -/

def EventOf (db : Db) (eventId reportId : Uuid) : Prop :=
  ∃ event : OutboxEvent, db.row (.outboxEvent eventId) = some event ∧ event.aggregateId = reportId

section Specs

variable {db : Db} {k : Key} {qualifies : Row k → Bool} {references : List Key}

theorem selectForUpdate_spec {α : Type} {found : Row k → α} {outcome : Result (Option α)}
    (h : selectForUpdate db k qualifies found = outcome) :
    (∃ v, db.row k = some v ∧ qualifies v = true ∧ outcome = lockRow k (some (found v))) ∨
      (∀ v, db.row k = some v → qualifies v = false) ∧ outcome = read none := by
  unfold selectForUpdate at h
  split at h
  · rename_i v hRow
    split at h
    · exact .inl ⟨v, hRow, ‹_›, h.symm⟩
    · rename_i hOut
      refine .inr ⟨fun w hw => ?_, h.symm⟩
      rw [hRow] at hw
      cases hw
      exact Bool.eq_false_iff.mpr hOut
  · rename_i hNone
    exact .inr ⟨fun v hv => absurd (hNone.symm.trans hv) nofun, h.symm⟩

theorem update_spec {change : Row k → List Write} {outcome : Result (Option (Row k))}
    (h : update db k qualifies change = outcome) :
    (∃ v, db.row k = some v ∧ qualifies v = true ∧
      outcome = { locks := [k], writes := change v, reply := .ok (some v) }) ∨
      (∀ v, db.row k = some v → qualifies v = false) ∧ outcome = read none := by
  unfold update at h
  split at h
  · rename_i v hRow
    split at h
    · exact .inl ⟨v, hRow, ‹_›, h.symm⟩
    · rename_i hOut
      refine .inr ⟨fun w hw => ?_, h.symm⟩
      rw [hRow] at hw
      cases hw
      exact Bool.eq_false_iff.mpr hOut
  · rename_i hNone
    exact .inr ⟨fun v hv => absurd (hNone.symm.trans hv) nofun, h.symm⟩

@[simp] theorem set_key (v : Row k) : (set k v).key = k := rfl

@[simp] theorem row_set (v : Row k) : (db.put (set k v)).row k = some v := Rows.put_self db (set k v)

@[simp] theorem row_set_of_ne {k' : Key} {v : Row k} (h : k' ≠ k) : (db.put (set k v)).row k' = db.row k' :=
  Rows.put_of_ne (show k' ≠ (set k v).key from h)

theorem present_iff : present db k = true ↔ ∃ v, db.row k = some v := Option.isSome_iff_exists

theorem absent_iff : present db k = false ↔ db.row k = none := by
  rw [present, Option.isSome_eq_false_iff, Option.isNone_iff_eq_none]

theorem insert_spec {checks : Bool} {entries : List Write} {outcome : Result Unit} {a : Unit}
    (h : insert db references checks entries = outcome) (hReply : outcome.reply = .ok a) :
    outcome = write entries () ∧ checks = true ∧ (∀ entry ∈ entries, db.row entry.key = none) ∧
      ∀ k ∈ references, present db k = true := by
  subst h
  cases checks with
  | false => simp [insert, reject] at hReply
  | true =>
    unfold insert at hReply ⊢
    simp only [Bool.not_true, Bool.false_eq_true, if_false] at hReply ⊢
    split at hReply
    · cases hReply
    · rename_i hFresh
      rw [if_neg hFresh]
      split at hReply
      · cases hReply
      · rename_i hReferences
        rw [if_neg hReferences]
        refine ⟨rfl, trivial, fun entry hEntry => ?_, ?_⟩
        · rw [List.any_map] at hFresh
          have hAbsent := List.any_eq_false.mp (Bool.eq_false_iff.mpr hFresh) entry hEntry
          exact absent_iff.mp (Bool.eq_false_iff.mpr hAbsent)
        · simpa using hReferences

theorem insertOrNothing_spec {v : Row k} {outcome : Result Bool} {a : Bool}
    (h : insertOrNothing db references k v = outcome) (hReply : outcome.reply = .ok a) :
    (a = false ∧ present db k = true ∧ outcome = read false) ∨
      a = true ∧ db.row k = none ∧ (∀ k ∈ references, present db k = true) ∧ outcome = write [set k v] true := by
  subst h
  unfold insertOrNothing at hReply ⊢
  split at hReply
  · rename_i hPresent
    cases hReply
    exact .inl ⟨rfl, hPresent, if_pos hPresent⟩
  · rename_i hAbsent
    rw [if_neg hAbsent]
    split at hReply
    · cases hReply
    · rename_i hReferences
      cases hReply
      rw [if_neg hReferences]
      exact .inr ⟨rfl, absent_iff.mp (Bool.eq_false_iff.mpr hAbsent), by simpa using hReferences, rfl⟩

theorem insertReport_spec {id : Uuid} {report : Report} {outcome : Result Unit} {a : Unit}
    (h : insertReport db id report = outcome) (hReply : outcome.reply = .ok a) : hasNul report.payload = false ∧
      outcome = write [set (.report id) report,
        set (.reportContent report.projectId report.runId report.payloadSha256) id] () ∧
      db.row (.report id) = none ∧ db.row (.reportContent report.projectId report.runId report.payloadSha256) = none := by
  subst h
  unfold insertReport at hReply ⊢
  split at hReply
  · cases hReply
  · rename_i hText
    rw [if_neg hText]
    obtain ⟨hRun, _, hFresh, _⟩ := insert_spec rfl hReply
    simp only [List.forall_mem_cons] at hFresh
    exact ⟨Bool.eq_false_iff.mpr hText, hRun, hFresh.1, hFresh.2.1⟩

theorem insertOutboxEvent_spec {now : Nat} {id reportId : Uuid} {outcome : Result Unit} {a : Unit}
    (h : insertOutboxEvent db now id reportId = outcome) (hReply : outcome.reply = .ok a) :
    outcome = write [set (.outboxEvent id)
      (⟨reportId, ⟨1, some id, some reportId⟩, now, now, .pending, none, none, none, 0, none⟩ : OutboxEvent)] () ∧
      db.row (.outboxEvent id) = none := by
  obtain ⟨hRun, _, hFresh, _⟩ := insert_spec h hReply
  exact ⟨hRun, hFresh _ List.mem_cons_self⟩

theorem leaseEvents_spec {now limit maxAttempts : Nat} {busy : Key → Bool} {outcome : Result (List LeasedEvent)}
    (h : leaseEvents db now busy limit maxAttempts = outcome) : ∃ picked : List (Uuid × OutboxEvent),
      (picked.map Prod.fst).Nodup ∧
      (∀ id event, (id, event) ∈ picked → db.row (.outboxEvent id) = some event ∧ isDue now maxAttempts event = true) ∧
      outcome = write (picked.map fun (id, event) => set (.outboxEvent id) (event.leased now))
        (picked.map fun (id, event) => ⟨id, event.payload, event.attempts + 1⟩) := by
  subst h
  refine ⟨_, ?_, fun id event hMem => ?_, rfl⟩
  · refine List.Nodup.sublist ((List.take_sublist _ _).map _) ?_
    refine ((List.mergeSort_perm _ _).map _).nodup_iff.mpr ?_
    refine List.Nodup.of_map Key.outboxEvent ?_
    rw [List.map_map]
    refine Rows.nodup_select fun {k v b} hFound => ?_
    split at hFound
    · split at hFound
      · cases hFound
        rfl
      · cases hFound
    · cases hFound
  · have hDue := List.mem_mergeSort.mp (List.mem_of_mem_take hMem)
    obtain ⟨k, v, hRow, hFound⟩ := Rows.mem_select.mp hDue
    split at hFound
    · split at hFound
      · rename_i hTest
        cases hFound
        exact ⟨hRow, (Bool.and_eq_true_iff.mp hTest).1⟩
      · cases hFound
    · cases hFound

end Specs

end GhostApi.Hosted
