import GhostApi.Js.Value
import GhostApi.Lib.Sql.Sessions

/-!
# The tables of the hosted service

A key names a row of a table or an entry of a unique index; the row under it
has the columns that the statements of the service read and write. Times are
milliseconds.
-/

namespace GhostApi.Hosted

open Js

abbrev Uuid := Nat

inductive MemberRole
  | owner
  | admin
  | developer
  | viewer
  deriving DecidableEq

inductive ReportStatus
  | accepted
  | processing
  | completed
  | failed
  deriving DecidableEq

inductive OutboxStatus
  | pending
  | leased
  | dispatched
  | deadLetter
  deriving DecidableEq

inductive JobStatus
  | processing
  | completed
  | failed
  | deadLetter
  deriving DecidableEq

inductive ResultStatus
  | passed
  | failed
  | notRun
  deriving DecidableEq

structure Organization where
  slug : String
  name : String
  createdBy : Option String

structure Membership where
  role : MemberRole

structure Project where
  organizationId : Uuid
  slug : String
  name : String

structure ScenarioVersion where
  projectId : Uuid
  scenarioKey : String
  version : Nat
  definition : Json
  definitionSha256 : String
  createdBy : String

structure IngestKey where
  projectId : Uuid
  name : String
  keyPrefix : String
  secretSha256 : String
  expiresAt : Nat
  createdBy : String
  revokedAt : Option Nat := none
  lastUsedAt : Option Nat := none

structure Report where
  projectId : Uuid
  ingestKeyId : Uuid
  runId : String
  payloadSha256 : String
  payload : Json
  acceptedAt : Nat
  status : ReportStatus := .accepted
  completedAt : Option Nat := none
  failureCode : Option String := none

structure IdempotencyRecord where
  requestSha256 : String
  reportId : Uuid
  createdAt : Nat
  expiresAt : Nat

/-- The body of a queue message; an id is none where its text is no UUID. -/
structure ReportEvent where
  schemaVersion : Nat
  eventId : Option Uuid
  reportId : Option Uuid
  deriving DecidableEq

structure OutboxEvent where
  aggregateId : Uuid
  payload : ReportEvent
  availableAt : Nat
  createdAt : Nat
  status : OutboxStatus := .pending
  leaseExpiresAt : Option Nat := none
  dispatchedAt : Option Nat := none
  deadLetteredAt : Option Nat := none
  attempts : Nat := 0
  lastError : Option String := none

structure JobReceipt where
  status : JobStatus
  leaseExpiresAt : Option Nat
  attempts : Nat
  completedAt : Option Nat := none
  failedAt : Option Nat := none
  failureCode : Option String := none

structure ScenarioResult where
  status : ResultStatus
  result : Json
  completedAt : Nat

structure AuditEvent where
  organizationId : Uuid
  actorId : String
  action : String
  resourceType : String
  resourceId : String
  metadata : Json
  occurredAt : Nat

structure Invitation where
  organizationId : Uuid
  email : String
  role : MemberRole
  tokenSha256 : String
  invitedBy : String
  expiresAt : Nat
  createdAt : Nat
  acceptedAt : Option Nat := none
  acceptedBy : Option String := none
  revokedAt : Option Nat := none

structure OrganizationQuota where
  projects : Nat := 50
  members : Nat := 100
  invitations : Nat := 100
  scenarios : Nat := 5000
  keys : Nat := 20
  reports : Nat := 100000

inductive Key
  | organization (id : Uuid)
  | organizationSlug (slug : String)
  | membership (organizationId : Uuid) (userId : String)
  | project (id : Uuid)
  | projectSlug (organizationId : Uuid) (slug : String)
  | scenarioVersion (id : Uuid)
  | scenarioNumber (projectId : Uuid) (scenarioKey : String) (version : Nat)
  | scenarioContent (projectId : Uuid) (scenarioKey definitionSha256 : String)
  | ingestKey (id : Uuid)
  | ingestKeyPrefix (keyPrefix : String)
  | report (id : Uuid)
  | reportContent (projectId : Uuid) (runId payloadSha256 : String)
  | idempotency (projectId : Uuid) (key : String)
  | outboxEvent (id : Uuid)
  | jobReceipt (eventId : Uuid)
  | scenarioResult (reportId scenarioVersionId : Uuid)
  | auditEvent (id : Uuid)
  | invitation (id : Uuid)
  | invitationToken (tokenSha256 : String)
  | activeInvitation (organizationId : Uuid) (email : String)
  | organizationQuota (organizationId : Uuid)
  | userQuota (userId : String)
  deriving DecidableEq

/-- The columns of a row; the entry of a unique index holds the id of its row. -/
abbrev Row : Key → Type
  | .organization _ => Organization
  | .membership _ _ => Membership
  | .project _ => Project
  | .scenarioVersion _ => ScenarioVersion
  | .ingestKey _ => IngestKey
  | .report _ => Report
  | .idempotency _ _ => IdempotencyRecord
  | .outboxEvent _ => OutboxEvent
  | .jobReceipt _ => JobReceipt
  | .scenarioResult _ _ => ScenarioResult
  | .auditEvent _ => AuditEvent
  | .invitation _ => Invitation
  | .organizationQuota _ => OrganizationQuota
  | .userQuota _ => Nat
  | .organizationSlug _ | .projectSlug _ _ | .scenarioNumber _ _ _ | .scenarioContent _ _ _ | .ingestKeyPrefix _
  | .reportContent _ _ _ | .invitationToken _ | .activeInvitation _ _ => Uuid

abbrev Db := Sql.Rows Row

abbrev Write := Sql.Change Row

structure DatabaseError where
  code : String
  message : String
  deriving DecidableEq

/-- The errors that the service throws. -/
inductive Failure
  | database (error : DatabaseError)
  | tenantQuota (resource : String)
  | jobLeaseActive
  | reportInput (message : String)
  | idempotencyConflict (message : String)
  | scenarioDefinition
  | publish (message : String)
  | error (message : String)
  deriving DecidableEq

end GhostApi.Hosted
