import GhostApi.Hosted.Database
import GhostApi.Js.Sha256

/-!
# Organizations, members, projects and ingest keys

The operations of the account routes. Each runs in one transaction; those of a
member first lock the organization and read the role of the actor.
-/

namespace GhostApi.Hosted

open Js Sql Effect

def MemberRole.rank : MemberRole → Nat
  | .viewer => 0
  | .developer => 1
  | .admin => 2
  | .owner => 3

def roleAtLeast (role minimum : MemberRole) : Bool := minimum.rank ≤ role.rank

def MemberRole.text : MemberRole → String
  | .owner => "owner"
  | .admin => "admin"
  | .developer => "developer"
  | .viewer => "viewer"

def TenantQuotaError (resource : String) : Failure := .tenantQuota (resource ++ "_quota_exceeded")

def uuidText (id : Uuid) : String := toString id

/-! ## Quotas and authorization -/

def lockOrganization (organizationId : Uuid) : Program Bool := do
  let found ← query (.selectOrganizationForUpdate organizationId)
  return found.isSome

def organizationIdForProject (projectId : Uuid) : Program (Option Uuid) := query (.selectProjectOrganization projectId)

def enforceQuota (organizationId : Uuid) (resource : Resource) : Program Unit := do
  let locked ← lockOrganization organizationId
  Program.throwIf (locked = false) (TenantQuotaError resource.text)
  let record ← query (.selectUsage organizationId resource)
  match record with
  | some (count, quota) => Program.throwIf (quota ≤ count) (TenantQuotaError resource.text)
  | none => throw (TenantQuotaError resource.text)

def enforceUserOrganizationQuota (userId : String) : Program Unit := do
  let _ ← query (.insertUserQuota userId)
  let quota ← query (.selectUserQuotaForUpdate userId)
  match quota with
  | none => throw (TenantQuotaError "organizations")
  | some quota => do
    let count ← query (.countOrganizations userId)
    Program.throwIf (quota ≤ count) (TenantQuotaError "organizations")

inductive MutationTarget
  | organization (id : Uuid)
  | project (id : Uuid)

def lockTarget : MutationTarget → Program (Option Uuid)
  | .organization id => query (.selectOrganizationForUpdate id)
  | .project id => query (.selectProjectOrganizationForUpdate id)

def withAuthorizedMutation {α : Type} (target : MutationTarget) (userId : String) (minimumRole : MemberRole)
    (operation : Uuid → MemberRole → Program (Option α)) : Program (Option α) := do
  let organizationId ← lockTarget target
  match organizationId with
  | none => return none
  | some organizationId => do
    let role ← query (.selectRole organizationId userId)
    match role with
    | none => return none
    | some role => if roleAtLeast role minimumRole then operation organizationId role else return none

def audit (organizationId : Uuid) (actorId action resourceType resourceId : String) (metadata : Json) :
    Program Unit := do
  let id ← external .randomUUID
  query (.insertAudit id organizationId actorId action resourceType resourceId metadata)

/-! ## Onboarding -/

def createOrganization (userId slug name : String) : Program Uuid := do
  enforceUserOrganizationQuota userId
  let id ← external .randomUUID
  query (.insertOrganization id slug name userId)
  query (.insertMembership id userId .owner)
  audit id userId "organization.created" "organization" (uuidText id) (.object [])
  return id

structure CreatedInvitation where
  id : Uuid
  token : String
  expiresAt : Nat

def revokeExpired (organizationId : Uuid) (email : String) : List Uuid → Program Unit
  | [] => return ()
  | id :: rest => do
    let _ ← query (.revokeInvitation organizationId email id)
    revokeExpired organizationId email rest

def createInvitation (organizationId : Uuid) (actorId email : String) (role : MemberRole) (expiresInDays : Nat) :
    Program CreatedInvitation := do
  let locked ← lockOrganization organizationId
  Program.throwIf (locked = false) (.error "organization_not_found")
  let expired ← query (.selectExpiredInvitations organizationId email)
  revokeExpired organizationId email expired
  enforceQuota organizationId .invitations
  let token ← external .randomText
  let id ← external .randomUUID
  let expiresAt ← query (.insertInvitation id organizationId email role (sha256 token) actorId expiresInDays)
  audit organizationId actorId "organization_invitation.created" "organization_invitation" (uuidText id)
    (.object [("role", .string role.text)])
  return ⟨id, token, expiresAt⟩

def acceptInvitation (token userId userEmail : String) : Program (Option (Uuid × MemberRole)) := do
  let record ← query (.selectInvitationForUpdate (sha256 token))
  match record with
  | none => return none
  | some (id, invitation) =>
    if lower invitation.email = lower userEmail then do
      enforceQuota invitation.organizationId .members
      let _ ← query (.insertMembershipOrNothing invitation.organizationId userId invitation.role)
      let _ ← query (.updateInvitationAccepted id userId)
      audit invitation.organizationId userId "organization_invitation.accepted" "organization_invitation"
        (uuidText id) (.object [])
      return some (invitation.organizationId, invitation.role)
    else return none

/-! ## Ingest keys -/

def MAX_EXPIRY_DAYS : Nat := 90

structure ProvisionedIngestKey where
  id : Uuid
  name : String
  keyPrefix : String
  secret : String
  expiresAt : Nat

structure IngestKeyInput where
  projectId : Uuid
  actorId : String
  name : String
  expiresInDays : Nat

def isUniqueViolation : Failure → Bool
  | .database error => error.code == "23505"
  | _ => false

def writeIngestKeyAuditEvent (projectId : Uuid) (actorId action : String) (keyId : Uuid) (metadata : Json) :
    Program Unit := do
  let id ← external .randomUUID
  query (.insertIngestKeyAudit id projectId actorId action (uuidText keyId) metadata)

def insertKey (input : IngestKeyInput) (id : Uuid) (keyPrefix secret : String) : Program ProvisionedIngestKey := do
  let name := trim input.name
  Program.throwIf (¬(1 ≤ Js.length name ∧ Js.length name ≤ 80)) (.error "name must contain 1-80 characters.")
  let expiresAt ← query (.insertIngestKey id input.projectId name keyPrefix (sha256 secret) input.expiresInDays input.actorId)
  writeIngestKeyAuditEvent input.projectId input.actorId "ci_ingest_key.created" id (.object [])
  return ⟨id, name, keyPrefix, secret, expiresAt⟩

def provisionKey (input : IngestKeyInput) : Nat → Program ProvisionedIngestKey
  | 0 => throw (.error "Unable to provision CI ingest key.")
  | attempts + 1 => do
    let id ← external .randomUUID
    let keyPrefix ← external .randomText
    let secret ← external .randomText
    tryCatch (insertKey input id keyPrefix secret) fun error =>
      if isUniqueViolation error = true ∧ attempts ≠ 0 then provisionKey input attempts else throw error

def createIngestKey (input : IngestKeyInput) : Program ProvisionedIngestKey := do
  Program.throwIf (¬(1 ≤ input.expiresInDays ∧ input.expiresInDays ≤ MAX_EXPIRY_DAYS))
    (.error "expiresInDays must be an integer between 1 and 90.")
  let organizationId ← organizationIdForProject input.projectId
  match organizationId with
  | none => throw (.error "project_not_found")
  | some organizationId => do
    enforceQuota organizationId .keys
    provisionKey input 3

def rotateIngestKey (input : IngestKeyInput) (keyId : Uuid) : Program (Option ProvisionedIngestKey) := do
  let found ← query (.selectIngestKeyForUpdate input.projectId keyId)
  match found with
  | none => return none
  | some _ => do
    let _ ← query (.revokeKey input.projectId keyId)
    let replacement ← createIngestKey input
    writeIngestKeyAuditEvent input.projectId input.actorId "ci_ingest_key.rotated" keyId
      (.object [("replacementKeyId", .string (uuidText replacement.id))])
    return some replacement

def revokeIngestKey (projectId keyId : Uuid) (actorId : String) : Program Bool := do
  let key ← query (.revokeActiveKey projectId keyId)
  match key with
  | none => return false
  | some _ => do
    writeIngestKeyAuditEvent projectId actorId "ci_ingest_key.revoked" keyId (.object [])
    return true

/-! ## Routes -/

def createProject (organizationId : Uuid) (userId slug name : String) : Program (Option Uuid) :=
  withAuthorizedMutation (.organization organizationId) userId .admin fun _ _ => do
    enforceQuota organizationId .projects
    let id ← external .randomUUID
    query (.insertProject id organizationId slug name)
    audit organizationId userId "project.created" "project" (uuidText id) (.object [])
    return some id

def ownerCount (organizationId : Uuid) : Program Nat := query (.countOwners organizationId)

def losesOwner (organizationId : Uuid) (owner : Bool) : Program Bool :=
  if owner then do
    let owners ← ownerCount organizationId
    return owners ≤ 1
  else return false

def changeRole (organizationId : Uuid) (actorId userId : String) (newRole : MemberRole) : Program (Option Bool) :=
  withAuthorizedMutation (.organization organizationId) actorId .admin fun _ role => do
    let target ← query (.selectRoleForUpdate organizationId userId)
    match target with
    | none => return some false
    | some targetRole =>
      if role ≠ .owner ∧ (roleAtLeast targetRole .admin = true ∨ roleAtLeast newRole .admin = true) then
        return some false
      else do
        let lost ← losesOwner organizationId (targetRole = .owner ∧ newRole ≠ .owner)
        if lost then return some false
        else do
          let _ ← query (.updateRole organizationId userId newRole)
          audit organizationId actorId "organization_member.role_changed" "user" userId
            (.object [("role", .string newRole.text)])
          return some true

def removeMember (organizationId : Uuid) (actorId userId : String) : Program (Option Bool) :=
  withAuthorizedMutation (.organization organizationId) actorId .admin fun _ role => do
    let target ← query (.selectRoleForUpdate organizationId userId)
    match target with
    | none => return some false
    | some targetRole =>
      if role ≠ .owner ∧ roleAtLeast targetRole .admin = true then return some false
      else do
        let lost ← losesOwner organizationId (targetRole = .owner)
        if lost then return some false
        else do
          let _ ← query (.deleteMembership organizationId userId)
          audit organizationId actorId "organization_member.removed" "user" userId (.object [])
          return some true

def invite (organizationId : Uuid) (actorId email : String) (newRole : MemberRole) (expiresInDays : Nat) :
    Program (Option CreatedInvitation) :=
  withAuthorizedMutation (.organization organizationId) actorId .admin fun _ role =>
    if role ≠ .owner ∧ newRole = .admin then return none
    else do
      let invitation ← createInvitation organizationId actorId email newRole expiresInDays
      return some invitation

structure ScenarioUpload where
  projectId : Uuid
  scenarioKey : String
  version : Nat
  definition : Json
  definitionSha256 : String

def uploadScenario (upload : ScenarioUpload) (userId : String) : Program (Option (Uuid × Nat)) :=
  withAuthorizedMutation (.project upload.projectId) userId .developer fun organizationId _ => do
    enforceQuota organizationId .scenarios
    let id ← external .randomUUID
    query (.insertScenarioVersion id upload.projectId upload.scenarioKey upload.version upload.definition
      upload.definitionSha256 userId)
    return some (id, upload.version)

def createKey (input : IngestKeyInput) : Program (Option ProvisionedIngestKey) :=
  withAuthorizedMutation (.project input.projectId) input.actorId .developer fun _ _ => do
    let key ← createIngestKey input
    return some key

def rotateKey (input : IngestKeyInput) (keyId : Uuid) : Program (Option ProvisionedIngestKey) :=
  withAuthorizedMutation (.project input.projectId) input.actorId .developer fun _ _ => rotateIngestKey input keyId

def revokeProjectKey (projectId keyId : Uuid) (actorId : String) : Program (Option Bool) :=
  withAuthorizedMutation (.project projectId) actorId .developer fun _ _ => do
    let revoked ← revokeIngestKey projectId keyId actorId
    return some revoked

end GhostApi.Hosted
