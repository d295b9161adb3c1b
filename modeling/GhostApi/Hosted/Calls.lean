import GhostApi.Hosted.Worker
import GhostApi.Lib.Sql.Runs

/-!
# The service as a system of clients

Every request, delivery, dispatcher and cleanup is a client of one database.
-/

namespace GhostApi.Hosted

open Js Sql Effect Transition Sql.Protocol

inductive Call
  | createOrganization (userId slug name : String)
  | createProject (organizationId : Uuid) (userId slug name : String)
  | changeRole (organizationId : Uuid) (actorId userId : String) (newRole : MemberRole)
  | removeMember (organizationId : Uuid) (actorId userId : String)
  | invite (organizationId : Uuid) (actorId email : String) (newRole : MemberRole) (expiresInDays : Nat)
  | acceptInvitation (token userId userEmail : String)
  | uploadScenario (upload : ScenarioUpload) (userId : String)
  | createKey (input : IngestKeyInput)
  | rotateKey (input : IngestKeyInput) (keyId : Uuid)
  | revokeKey (projectId keyId : Uuid) (actorId : String)
  | submitReport (input : ReportInput)
  | dispatchOutbox (maxAttempts limit : Nat)
  | processReportEvent (event : ReportEvent) (maxAttempts : Nat)
  | runCleanup (config : Retention)

/-- A call is made for its effects; its answer is dropped. -/
def discard {α : Type} (p : Program α) : Program Unit := do
  let _ ← p
  return ()

def inTransaction {α : Type} (p : Program α) : Program Unit := discard (transaction (fun _ => .plain) p)

def Call.program : Call → Program Unit
  | .createOrganization userId slug name => inTransaction (Hosted.createOrganization userId slug name)
  | .createProject organizationId userId slug name =>
    inTransaction (Hosted.createProject organizationId userId slug name)
  | .changeRole organizationId actorId userId newRole =>
    inTransaction (Hosted.changeRole organizationId actorId userId newRole)
  | .removeMember organizationId actorId userId => inTransaction (Hosted.removeMember organizationId actorId userId)
  | .invite organizationId actorId email newRole expiresInDays =>
    inTransaction (Hosted.invite organizationId actorId email newRole expiresInDays)
  | .acceptInvitation token userId userEmail => inTransaction (Hosted.acceptInvitation token userId userEmail)
  | .uploadScenario upload userId => inTransaction (Hosted.uploadScenario upload userId)
  | .createKey input => inTransaction (Hosted.createKey input)
  | .rotateKey input keyId => inTransaction (Hosted.rotateKey input keyId)
  | .revokeKey projectId keyId actorId => inTransaction (revokeProjectKey projectId keyId actorId)
  | .submitReport input => discard (Hosted.submitReport input)
  | .dispatchOutbox maxAttempts limit => discard (Hosted.dispatchOutbox maxAttempts limit)
  | .processReportEvent event maxAttempts => discard (Hosted.processReportEvent event maxAttempts)
  | .runCleanup config => discard (Hosted.runCleanup config)

abbrev System := Sql.System Row ClientId World Failure Call Note Reply Answer

abbrev Event := Sql.Event ClientId DatabaseError Chance Call

abbrev Guard := ClientId → Op Query External Note Failure → Session Row ClientId World → Prop

def service (initial : Server) : Machine System Event := Sql.System.machine engine Call.program initial

/-! ## Drawing ids and texts -/

section Draws

variable {P : Protocol engine} {i : ClientId} {guard : Op Query External Note Failure → Session Row ClientId World → Prop}
  {A : Assertion engine} {α : Type} {start s : Server} {writes : List Write} {R : α → List Write → Server → Prop}

theorem within_randomUUID {f : Uuid → Program α}
    (h : ∀ id s₁, P.Since i s s₁ → P.Within i guard A start R (f id) writes s₁) :
    P.Within i guard A start R (external .randomUUID >>= f) writes s := by
  refine .external fun s₁ c reply world hSince _ hAnswer => ?_
  cases c with
  | uuid id =>
    cases hAnswer
    exact ⟨.of_committed hSince.inv rfl, .refl hSince.inv, h id s₁ hSince⟩
  | _ => cases hAnswer

end Draws

section Quotas

variable {P : Protocol engine} {i : ClientId} {guard : Op Query External Note Failure → Session Row ClientId World → Prop}
  {A : Assertion engine} {start s : Server} {writes : List Write} {o : Uuid} {resource : Resource}

/-- The organization was locked when its usage was below its quota. -/
structure BelowQuota (P : Protocol engine) (i : ClientId) (now : Nat) (o : Uuid) (resource : Resource)
    (writes : List Write) (s s₁ : Server) (quota : OrganizationQuota) : Prop where
  since : P.Since i s s₁
  locked : s₁.owner (.organization o) = some i
  stored : (s₁.rows.apply writes).row (.organizationQuota o) = some quota
  below : usage (s₁.rows.apply writes) o now resource < quota.of resource

theorem lockOrganization_within :
    P.Within i guard A start (fun locked writes' s' => writes' = writes ∧ P.Since i s s' ∧
      (locked = true → s'.owner (.organization o) = some i)) (lockOrganization o) writes s := by
  refine .query fun s₁ found outcome hSince _ hRun _ hReply => .pure ?_
  have hLocked := hSince.trans (.lock hSince.inv outcome.keys)
  obtain ⟨_, _, _, rfl⟩ | ⟨_, rfl⟩ := selectForUpdate_spec hRun
  · cases hReply
    exact ⟨List.append_nil _, hLocked, fun _ => owner_lock_of_mem List.mem_cons_self⟩
  · cases hReply
    exact ⟨List.append_nil _, hLocked, fun h => nomatch h⟩

theorem throwIf_within {c : Prop} {_ : Decidable c} {e : Failure} {R : Unit → List Write → Server → Prop}
    (hThrow : c → ∀ s', P.Since i s s' → A.rollback e (some ⟨start.clock, writes, false⟩) s')
    (hPass : ¬c → R () writes s) : P.Within i guard A start R (Program.throwIf c e) writes s := by
  rw [Program.throwIf]
  split
  · exact .throw (hThrow ‹_›)
  · exact .pure (hPass ‹_›)

theorem enforceQuota_within
    (hError : ∀ e s', P.Since i s s' → A.rollback e (some ⟨start.clock, writes, false⟩) s') :
    P.Within i guard A start (fun _ writes' s' => writes' = writes ∧ ∃ s₁ quota,
      BelowQuota P i start.clock o resource writes s s₁ quota ∧ P.Since i s₁ s') (enforceQuota o resource) writes s := by
  refine lockOrganization_within.bind fun locked writes' s₁ ⟨hSame, hSince₁, hLocked⟩ => ?_
  subst hSame
  refine .throwIf (fun _ s' hSince => hError _ s' (hSince₁.trans hSince)) fun hFound => ?_
  have hOwner := hLocked (by simpa using hFound)
  refine .query fun s₂ record outcome hSince₂ _ hRun _ hReply => ?_
  have hNone : outcome.writes = [] := by
    subst hRun
    rfl
  have hRest : ∀ s', P.Since i (s₂.lock i outcome.keys) s' → P.Since i s s' :=
    fun s' hSince => hSince₁.trans (hSince₂.trans hSince.after_lock)
  have hRecord : record = ((s₂.rows.apply writes').row (.organizationQuota o)).map fun quota =>
      (usage (s₂.rows.apply writes') o start.clock resource, quota.of resource) := by
    subst hRun
    cases hReply
    rfl
  rw [hNone, List.append_nil, hRecord]
  cases hQuota : (s₂.rows.apply writes').row (.organizationQuota o) with
  | none => exact .throw fun s' hSince => hError _ s' (hRest s' hSince)
  | some quota =>
    refine throwIf_within (fun _ s' hSince => hError _ s' (hRest s' hSince)) fun hBelow => ?_
    exact ⟨rfl, s₂, quota, ⟨hSince₁.trans hSince₂, hSince₂.owned hOwner, hQuota, Nat.lt_of_not_le hBelow⟩,
      .lock hSince₂.inv _⟩

end Quotas

def oneReport : Server where
  rows := Rows.empty.apply [
    set (.report 1) (⟨0, 0, "run", "", .object [], 0, .accepted, none, none⟩ : Report),
    set (.outboxEvent 2) (⟨1, ⟨1, some 2, some 1⟩, 0, 0, .pending, none, none, none, 0, none⟩ : OutboxEvent)]
  world := {}
  clock := 0

def advances (i : ClientId) (n : Nat) : List Event := List.replicate n (.advance i .ok)

/-! ## Owners -/

/-- A commit leaves an organization that is still there an owner if it had one: a membership that changed has
fired the trigger, and a new one takes none away. -/
theorem owner_of_commit {db : Db} {writes : List Write} {organizationId : Uuid} (hDeferred : deferred writes db = none)
    (hOwner : 0 < db.count (isOwner organizationId))
    (hThere : present (db.apply writes) (.organization organizationId) = true) :
    0 < (db.apply writes).count (isOwner organizationId) := by
  have hFired : ∀ change ∈ writes, ∀ userId, change.key = .membership organizationId userId →
      present db (.membership organizationId userId) = true → 0 < (db.apply writes).count (isOwner organizationId) := by
    intro change hMem userId hKey hOld
    have hKept := (deferred_none hDeferred).2 change hMem
    rw [hKey] at hKept
    simpa [keepsOwner, hOld, hThere] using hKept
  by_contra hNone
  have hNobody : db.count (isOwner organizationId) ≤ ([] : List Key).length := Rows.count_le_length ?_
  · exact Nat.not_lt.mpr hNobody hOwner
  rintro k ⟨v, hRow, hTest⟩
  cases k with
  | membership o userId =>
    obtain rfl : o = organizationId := eq_of_beq (Bool.and_eq_true_iff.mp hTest).1
    have hSame : (db.apply writes).row (.membership o userId) = some v := by
      rw [Rows.apply_of_unwritten fun change hMem hKey => hNone (hFired change hMem userId hKey (by simp [present, hRow])), hRow]
    exact absurd ⟨v, hSame, hTest⟩ (Rows.not_passes_of_count (Nat.eq_zero_of_not_pos hNone) _)
  | _ => cases hTest

def IsThere (organizationId : Uuid) (s : System) : Prop := present s.server.rows (.organization organizationId) = true

/-- An organization with two owners. -/
def twoOwners : Server where
  rows := Rows.empty.apply [set (.organization 0) (⟨"acme", "Acme", none⟩ : Organization),
    set (.membership 0 "ann") (⟨.owner⟩ : Membership), set (.membership 0 "bob") (⟨.owner⟩ : Membership)]
  world := {}
  clock := 0

def removal : List Event :=
  .start 0 (.removeMember 0 "ann" "bob") :: advances 0 6 ++ .advance 0 (.outside (.uuid 1)) :: advances 0 3

end GhostApi.Hosted
