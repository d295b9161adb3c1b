import GhostApi.Hosted.Accepting
import GhostApi.Lib.Sql.Single

/-!
# Provisioning and rotation of ingest keys

A key whose prefix is in use violates a unique index, and the violation aborts
the transaction: the attempts that follow cannot insert anything. A rotation
is a single transaction, so that the old key is revoked only where a new one
is there.
-/

namespace GhostApi.Hosted

open Js Sql Effect

structure KeyDraw where
  id : Uuid
  keyPrefix : String
  secret : String

def KeyDraw.chances (d : KeyDraw) : List Chance := [.uuid d.id, .text d.keyPrefix, .text d.secret]

def PrefixInUse (db : Db) (keyPrefix : String) : Prop :=
  ∃ id, ∃ ingestKey : IngestKey, db.row (.ingestKey id) = some ingestKey ∧ ingestKey.keyPrefix = keyPrefix

/-- The input is valid, the quota of keys is not reached, and what is drawn as an id is new. -/
structure Provisionable (db : Db) (now : Nat) (input : IngestKeyInput) (ids : List Uuid) : Prop where
  expiry : 1 ≤ input.expiresInDays ∧ input.expiresInDays ≤ MAX_EXPIRY_DAYS
  name : 1 ≤ Js.length (trim input.name) ∧ Js.length (trim input.name) ≤ 80
  /-- A text column holds the name. -/
  storable : '\x00' ∉ input.name.toList
  available : ∃ (project : Project) (quota : OrganizationQuota), db.row (.project input.projectId) = some project ∧
    present db (.organization project.organizationId) = true ∧
    db.row (.organizationQuota project.organizationId) = some quota ∧ usage db project.organizationId now .keys < quota.keys
  fresh : ∀ id ∈ ids, db.row (.ingestKey id) = none ∧ db.row (.auditEvent id) = none
  indexed : ∀ keyPrefix, present db (.ingestKeyPrefix keyPrefix) = true ↔ PrefixInUse db keyPrefix

section Create

variable {c : Committed Row World} {i : ClientId} {now : Nat} {input : IngestKeyInput} {writes : List Write} {ids : List Uuid}
  {draws rest : List Chance} {first second third : KeyDraw} {event : Uuid} {id : Uuid} {keyPrefix secret : String}

def inFailedTransaction : Failure := .database engine.inFailedTransaction

def IngestKeyInput.row (input : IngestKeyInput) (now : Nat) (d : KeyDraw) : IngestKey :=
  ⟨input.projectId, trim input.name, d.keyPrefix, sha256 d.secret, now + days input.expiresInDays, input.actorId, none, none⟩

def keyEntries (id : Uuid) (ingestKey : IngestKey) : List Write :=
  [set (.ingestKey id) ingestKey, set (.ingestKeyPrefix ingestKey.keyPrefix) id]

theorem hasLength_of_name (h : Provisionable (c.rows.apply writes) now input ids) : hasLength 1 80 (trim input.name) = true := by
  obtain ⟨hLow, hHigh⟩ := h.name
  rw [hasLength, Bool.and_eq_true, decide_eq_true_eq, decide_eq_true_eq]
  constructor
  · by_contra hShort
    have hNil : (trim input.name).toList = [] := List.length_eq_zero_iff.mp (by omega)
    rw [Js.length, hNil] at hLow
    exact absurd hLow (by decide)
  · exact (length_le_codeUnits _).trans hHigh

theorem insertIngestKey_eq (h : Provisionable (c.rows.apply writes) now input ids) (d : KeyDraw) :
    insertIngestKey (c.rows.apply writes) now d.id (input.row now d) =
      (insert (c.rows.apply writes) [.project input.projectId] true (keyEntries d.id (input.row now d))).returning
        (now + days input.expiresInDays) := by
  have hLater : now < now + days input.expiresInDays := by
    have hDays := h.expiry.1
    rw [days]
    omega
  rw [insertIngestKey, show hasLength 1 80 (input.row now d).name = true from hasLength_of_name h]
  rw [show decide (now < (input.row now d).expiresAt) = true from decide_eq_true hLater]
  rfl

theorem absent_of_unused (h : Provisionable (c.rows.apply writes) now input ids)
    (hUnused : ¬PrefixInUse (c.rows.apply writes) keyPrefix) : (c.rows.apply writes).row (.ingestKeyPrefix keyPrefix) = none :=
  absent_iff.mp (Bool.eq_false_iff.mpr fun hPresent => hUnused ((h.indexed keyPrefix).mp hPresent))

theorem insertKey_leads (h : Provisionable (c.rows.apply writes) now input ids) {d : KeyDraw} (hId : d.id ∈ ids)
    (hEvent : event ∈ ids) (hUnused : ¬PrefixInUse (c.rows.apply writes) d.keyPrefix) : ∃ key writes',
    Leads engine i c now (insertKey input d.id d.keyPrefix d.secret) (.uuid event :: rest) writes key rest writes' := by
  obtain ⟨project, _, hProject, hOrganization, _⟩ := h.available
  have hKey : (c.rows.apply writes).row (.ingestKey d.id) = none := (h.fresh d.id hId).1
  have hAudit : (c.rows.apply writes).row (.auditEvent event) = none := (h.fresh event hEvent).2
  have hInsert : ∀ busy : Key → Bool, engine.execute (.insertIngestKey d.id input.projectId (trim input.name) d.keyPrefix
      (sha256 d.secret) input.expiresInDays input.actorId) now busy (c.rows.apply writes) =
      write (keyEntries d.id (input.row now d)) (now + days input.expiresInDays) := by
    intro busy
    change insertIngestKey _ now d.id (input.row now d) = _
    rw [insertIngestKey_eq h d, insert_done ?_ ?_]
    · rfl
    · simp [keyEntries, IngestKeyInput.row, hKey, absent_of_unused h hUnused]
    · simp [present, hProject]
  have hLater : ∀ k, (∀ id, k ≠ .ingestKey id) → (∀ keyPrefix, k ≠ .ingestKeyPrefix keyPrefix) →
      (c.rows.apply (writes ++ keyEntries d.id (input.row now d))).row k = (c.rows.apply writes).row k := by
    intro k hNotKey hNotPrefix
    rw [Rows.apply_append]
    refine Rows.apply_of_unwritten fun change hMem => ?_
    simp only [keyEntries, List.mem_cons, List.not_mem_nil, or_false] at hMem
    cases hMem with
    | inl hFirst =>
      subst hFirst
      exact (hNotKey d.id).symm
    | inr hSecond =>
      subst hSecond
      exact (hNotPrefix d.keyPrefix).symm
  have hAudited : ∀ busy : Key → Bool, engine.execute (.insertIngestKeyAudit event input.projectId input.actorId
      "ci_ingest_key.created" (uuidText d.id) (.object [])) now busy
      (c.rows.apply (writes ++ keyEntries d.id (input.row now d))) =
      write [set (.auditEvent event) (⟨project.organizationId, input.actorId, "ci_ingest_key.created", "ci_ingest_key",
        uuidText d.id, .object [], now⟩ : AuditEvent)] () := by
    intro busy
    change insertIngestKeyAudit _ _ _ _ _ _ _ _ = _
    rw [insertIngestKeyAudit, hLater _ (by simp) (by simp), hProject]
    refine insert_done ?_ ?_
    · simpa [hLater] using hAudit
    · simpa [present, hLater] using hOrganization
  have hName : ¬¬(1 ≤ Js.length (trim input.name) ∧ Js.length (trim input.name) ≤ 80) := not_not.mpr h.name
  have hWritten : Leads engine i c now (writeIngestKeyAuditEvent input.projectId input.actorId "ci_ingest_key.created" d.id
      (.object [])) (.uuid event :: rest) (writes ++ keyEntries d.id (input.row now d)) () rest _ :=
    leads_randomUUID.bind (leads_query _ hAudited rfl)
  exact ⟨_, _, (leads_throwIf hName).bind ((leads_query _ hInsert rfl).bind (hWritten.bind (leads_pure _)))⟩

theorem insertKey_violates (h : Provisionable (c.rows.apply writes) now input ids) {d : KeyDraw} {s : Sql.Server Row ClientId World}
    (hRows : s.toCommitted = c) (hFree : Unlocked i s) (hUsed : PrefixInUse (c.rows.apply writes) d.keyPrefix) :
    Yields engine i (insertKey input d.id d.keyPrefix d.secret) draws (some ⟨now, writes, false⟩, s)
      (.error (.database uniqueViolation)) draws (some ⟨now, writes, true⟩, s) := by
  subst hRows
  have hName : ¬¬(1 ≤ Js.length (trim input.name) ∧ Js.length (trim input.name) ≤ 80) := not_not.mpr h.name
  refine (yields_throwIf_not hName).bind (Yields.throws (yields_query_error hFree ?_))
  change (insertIngestKey _ now d.id (input.row now d)).reply = _
  have hEntry : set (.ingestKeyPrefix d.keyPrefix) d.id ∈ keyEntries d.id (input.row now d) :=
    List.mem_cons_of_mem _ List.mem_cons_self
  rw [insertIngestKey_eq h d, insert_violates hEntry ((h.indexed d.keyPrefix).mpr hUsed)]
  rfl

theorem insertKey_aborted (h : Provisionable (c.rows.apply writes) now input ids) {d : KeyDraw} {s : Sql.Server Row ClientId World} :
    Yields engine i (insertKey input d.id d.keyPrefix d.secret) draws (some ⟨now, writes, true⟩, s)
      (.error inFailedTransaction) draws (some ⟨now, writes, true⟩, s) := by
  have hName : ¬¬(1 ≤ Js.length (trim input.name) ∧ Js.length (trim input.name) ≤ 80) := not_not.mpr h.name
  exact (yields_throwIf_not hName).bind yields_query_aborted.throws

theorem leads_randomText {text : String} : Leads engine i c now (external .randomText) (.text text :: draws) writes text draws writes :=
  leads_external rfl

theorem provisionKey_leads {d : KeyDraw} {attempts : Nat} {key : ProvisionedIngestKey} {writes' : List Write}
    (h : Leads engine i c now (insertKey input d.id d.keyPrefix d.secret) draws writes key rest writes') :
    Leads engine i c now (provisionKey input (attempts + 1)) (d.chances ++ draws) writes key rest writes' :=
  leads_randomUUID.bind (leads_randomText.bind (leads_randomText.bind h.passes))

theorem yields_draws {d : KeyDraw} {attempts : Nat} {txn : Option (Transaction Row)} {s : Sql.Server Row ClientId World}
    {result : Except Failure ProvisionedIngestKey} {session : Session Row ClientId World}
    (h : Yields engine i (MonadExcept.tryCatch (insertKey input d.id d.keyPrefix d.secret) fun error =>
      if isUniqueViolation error = true ∧ attempts ≠ 0 then provisionKey input attempts else throw error) draws (txn, s)
      result rest session) :
    Yields engine i (provisionKey input (attempts + 1)) (d.chances ++ draws) (txn, s) result rest session :=
  (yields_external rfl).bind ((yields_external rfl).bind ((yields_external rfl).bind h))

theorem provisionKey_fails (h : Provisionable (c.rows.apply writes) now input ids)
    (hUsed : PrefixInUse (c.rows.apply writes) first.keyPrefix) :
    Fails engine i c now (provisionKey input 3) (first.chances ++ (second.chances ++ draws)) writes inFailedTransaction draws := by
  rintro s hRows hFree
  refine ⟨s, some ⟨now, writes, true⟩, hRows, hFree, yields_draws ((insertKey_violates h hRows hFree hUsed).caught ?_)⟩
  rw [if_pos ⟨by decide, by decide⟩]
  refine yields_draws ((insertKey_aborted h).caught ?_)
  rw [if_neg fun hViolation => absurd hViolation.1 (by decide)]
  rfl

theorem createIngestKey_starts (h : Provisionable (c.rows.apply writes) now input ids) : ∃ o, ∀ draws,
    Leads engine i c now (organizationIdForProject input.projectId) draws writes (some o) draws writes ∧
      Leads engine i c now (enforceQuota o .keys) draws writes () draws writes := by
  obtain ⟨project, quota, hProject, hOrganization, hQuota, hBelow⟩ := h.available
  refine ⟨project.organizationId, fun draws => ⟨?_, leads_enforceQuota hOrganization hQuota hBelow⟩⟩
  refine leads_read (read (some project.organizationId)) (fun busy => ?_) rfl rfl
  change read _ = _
  rw [hProject]
  rfl

def Provisioned (i : ClientId) (c : Committed Row World) (now : Nat) (writes : List Write) (input : IngestKeyInput)
    (draws : List Chance) : Prop :=
  ∃ key rest writes', Leads engine i c now (createIngestKey input) draws writes key rest writes'

theorem createIngestKey_leads (h : Provisionable (c.rows.apply writes) now input ids) (hFirst : first.id ∈ ids)
    (hSecond : second.id ∈ ids) (hUnused : ¬PrefixInUse (c.rows.apply writes) first.keyPrefix) :
    Provisioned i c now writes input (first.chances ++ (second.chances ++ draws)) := by
  obtain ⟨o, hStarts⟩ := createIngestKey_starts (i := i) h
  obtain ⟨key, writes', hInsert⟩ : ∃ key writes', Leads engine i c now
      (insertKey input first.id first.keyPrefix first.secret) (second.chances ++ draws) writes key
      (second.chances.tail ++ draws) writes' := insertKey_leads h hFirst hSecond hUnused
  have hAttempt : Leads engine i c now (provisionKey input 3) (first.chances ++ (second.chances ++ draws)) writes key
      (second.chances.tail ++ draws) writes' := provisionKey_leads hInsert
  exact ⟨key, _, writes', (leads_throwIf (not_not.mpr h.expiry)).bind ((hStarts _).1.bind ((hStarts _).2.bind hAttempt))⟩

theorem createIngestKey_fails (h : Provisionable (c.rows.apply writes) now input ids)
    (hUsed : PrefixInUse (c.rows.apply writes) first.keyPrefix) :
    ¬Provisioned i c now writes input (first.chances ++ (second.chances ++ draws)) := by
  rintro ⟨key, rest, writes', hLeads⟩
  obtain ⟨o, hStarts⟩ := createIngestKey_starts (i := i) h
  have hFails : Fails engine i c now (createIngestKey input) (first.chances ++ (second.chances ++ draws)) writes
      inFailedTransaction draws :=
    (leads_throwIf (not_not.mpr h.expiry)).thenFails
      ((hStarts _).1.thenFails ((hStarts _).2.thenFails (provisionKey_fails h hUsed)))
  obtain ⟨_, _, _, hYields⟩ := hLeads ⟨c, fun _ => none⟩ rfl fun _ => rfl
  obtain ⟨_, _, _, _, hError⟩ := hFails ⟨c, fun _ => none⟩ rfl fun _ => rfl
  cases hYields.symm.trans hError

end Create

/-! ## What a transaction writes -/

section Rotate

variable {i : ClientId} {db rows : Db} {now : Nat} {id : Uuid} {ingestKey : IngestKey} {input : IngestKeyInput} {keyId : Uuid}
  {keyPrefix secret : String} {t : Transaction Row}

def IsAudit (change : Write) : Prop := ∃ id, change.key = .auditEvent id

theorem insertIngestKey_spec {outcome : Result Nat} {a : Nat} (h : insertIngestKey db now id ingestKey = outcome)
    (hReply : outcome.reply = .ok a) : outcome.writes = keyEntries id ingestKey ∧ db.row (.ingestKey id) = none := by
  subst h
  generalize hInsert : insert db [.project ingestKey.projectId] (hasLength 1 80 ingestKey.name && now < ingestKey.expiresAt)
    (keyEntries id ingestKey) = outcome at *
  have hMade : insertIngestKey db now id ingestKey = outcome.returning ingestKey.expiresAt :=
    congrArg (fun made => made.returning ingestKey.expiresAt) hInsert
  rw [hMade] at hReply ⊢
  cases hResult : outcome.reply with
  | error e =>
    rw [Outcome.returning, hResult] at hReply
    cases hReply
  | ok b =>
    obtain ⟨rfl, _, hFresh, _⟩ := insert_spec hInsert hResult
    exact ⟨rfl, hFresh _ List.mem_cons_self⟩

theorem insertIngestKeyAudit_spec {projectId : Uuid} {actorId action resourceId : String} {metadata : Json}
    {outcome : Result Unit} {a : Unit}
    (h : insertIngestKeyAudit db now id projectId actorId action resourceId metadata = outcome)
    (hReply : outcome.reply = .ok a) : ∀ change ∈ outcome.writes, IsAudit change := by
  unfold insertIngestKeyAudit at h
  split at h
  · obtain ⟨rfl, _⟩ := insert_spec h hReply
    intro change hMem
    cases List.mem_singleton.mp hMem
    exact ⟨id, rfl⟩
  · subst h
    intro change hMem
    cases hMem

/-- An operation writes audit events at most; where it throws, the transaction has failed. -/
def Audits (writes : List Write) (result : Except Failure Unit) (t : Transaction Row) : Prop :=
  (∀ a, result = .ok a → t.aborted = false ∧ ∃ tail, t.writes = writes ++ tail ∧ ∀ change ∈ tail, IsAudit change) ∧
    ∀ e, result = .error e → t.aborted = true

theorem operates_draw {α : Type} {x : External} {f : Answer x → Program α} {Q : Except Failure α → Transaction Row → Prop}
    (hDraw : ∀ ch world reply world', answer x i ch world = some (reply, world') → ∃ a, reply = .ok a)
    (h : ∀ a, Operates engine i rows Q (f a) t) : Operates engine i rows Q (external x >>= f) t := by
  refine Operates.external (fun ch world e world' hAnswer => ?_) h
  obtain ⟨_, hReply⟩ := hDraw ch world _ world' hAnswer
  cases hReply

theorem randomUUID_drawn (ch : Chance) (world : World) (reply : Except Failure Uuid) (world' : World)
    (h : answer .randomUUID i ch world = some (reply, world')) : ∃ a, reply = .ok a := by
  cases ch <;> cases h
  exact ⟨_, rfl⟩

theorem randomText_drawn (ch : Chance) (world : World) (reply : Except Failure String) (world' : World)
    (h : answer .randomText i ch world = some (reply, world')) : ∃ a, reply = .ok a := by
  cases ch <;> cases h
  exact ⟨_, rfl⟩

theorem writeIngestKeyAuditEvent_operates {projectId : Uuid} {actorId action : String} {metadata : Json}
    (hOpen : t.aborted = false) :
    Operates engine i rows (Audits t.writes) (writeIngestKeyAuditEvent projectId actorId action keyId metadata) t := by
  unfold writeIngestKeyAuditEvent
  refine operates_draw randomUUID_drawn fun id => ?_
  refine Operates.query_last (q := Query.insertIngestKeyAudit id projectId actorId action (uuidText keyId) metadata) hOpen ?_ ?_
  · intro d
    constructor
    · intro a hResult
      cases hResult
    · exact fun _ _ => rfl
  · intro busy a outcome hRun hReply
    constructor
    · exact fun _ _ => ⟨hOpen, outcome.writes, rfl, insertIngestKeyAudit_spec hRun hReply⟩
    · intro e hResult
      cases hResult

/-- A key was added to what the transaction wrote before. -/
structure Added (rows : Db) (before : List Write) (key : ProvisionedIngestKey) (t : Transaction Row) : Prop where
  running : t.aborted = false
  written : ∃ (ingestKey : IngestKey) (tail : List Write), t.writes = before ++ keyEntries key.id ingestKey ++ tail ∧
    (∀ change ∈ tail, IsAudit change) ∧ ingestKey.revokedAt = none ∧ ingestKey.secretSha256 = sha256 key.secret
  fresh : (rows.apply before).row (.ingestKey key.id) = none

/-- How an attempt ends: it can be repeated only in a transaction that has failed. -/
def Attempted (rows : Db) (before : List Write) (result : Except Failure ProvisionedIngestKey) (t : Transaction Row) : Prop :=
  (∀ key, result = .ok key → Added rows before key t) ∧
    ∀ e, result = .error e → isUniqueViolation e = true → t.aborted = true

theorem insertKey_operates (hOpen : t.aborted = false) :
    Operates engine i rows (Attempted rows t.writes) (insertKey input id keyPrefix secret) t := by
  unfold insertKey
  dsimp only
  refine Operates.throwIf ?_ ?_
  · intro _
    constructor
    · intro key hResult
      cases hResult
    · intro e hResult hViolation
      cases hResult
      cases hViolation
  · intro _
    refine Operates.query hOpen ?_ ?_
    · intro d
      constructor
      · intro key hResult
        cases hResult
      · exact fun _ _ _ => rfl
    · intro busy expiresAt outcome hRun hReply
      obtain ⟨hWrites, hFresh⟩ := insertIngestKey_spec hRun hReply
      refine Operates.bind (writeIngestKeyAuditEvent_operates hOpen) ?_ ?_
      · intro e t' hAudits
        constructor
        · intro key hResult
          cases hResult
        · exact fun _ _ _ => hAudits.2 e rfl
      · intro a t' hAudits
        obtain ⟨hRunning, tail, hWritten, hTail⟩ := hAudits.1 a rfl
        refine Operates.done ⟨?_, ?_⟩
        · intro key hResult
          cases hResult
          exact ⟨hRunning, ⟨_, tail, hWrites ▸ hWritten, hTail, rfl, rfl⟩, hFresh⟩
        · intro e hResult
          cases hResult

theorem insertKey_stuck (hAborted : t.aborted = true) :
    Operates engine i rows (fun result t' => (∃ e, result = .error e) ∧ t'.aborted = true) (insertKey input id keyPrefix secret) t := by
  unfold insertKey
  dsimp only
  refine Operates.throwIf ?_ ?_
  · exact fun _ => ⟨⟨_, rfl⟩, hAborted⟩
  · intro _
    refine Operates.query_aborted hAborted ?_
    exact fun _ => ⟨⟨_, rfl⟩, hAborted⟩

theorem provisionKey_draws {attempts : Nat} {Q : Except Failure ProvisionedIngestKey → Transaction Row → Prop}
    (h : ∀ id keyPrefix secret, Operates engine i rows Q (MonadExcept.tryCatch (insertKey input id keyPrefix secret) fun error =>
      if isUniqueViolation error = true ∧ attempts ≠ 0 then provisionKey input attempts else throw error) t) :
    Operates engine i rows Q (provisionKey input (attempts + 1)) t := by
  rw [provisionKey]
  refine operates_draw randomUUID_drawn fun id => ?_
  refine operates_draw randomText_drawn fun keyPrefix => ?_
  refine operates_draw randomText_drawn fun secret => ?_
  exact h id keyPrefix secret

theorem provisionKey_stuck {attempts : Nat} (hAborted : t.aborted = true) :
    Operates engine i rows (fun result _ => ∃ e, result = .error e) (provisionKey input attempts) t := by
  induction attempts generalizing t with
  | zero => exact Operates.done ⟨_, rfl⟩
  | succ attempts ih =>
    refine provisionKey_draws fun id keyPrefix secret => ?_
    have hAttempt : Operates engine i rows (fun result t' => (∃ e, result = .error e) ∧ t'.aborted = true)
        (insertKey input id keyPrefix secret) t := insertKey_stuck hAborted
    refine hAttempt.tryCatch ?_ ?_
    · rintro key t' ⟨⟨e, hResult⟩, _⟩
      cases hResult
    · intro e t' hStuck
      split
      · exact ih hStuck.2
      · exact Operates.done ⟨e, rfl⟩

theorem provisionKey_operates {attempts : Nat} (hOpen : t.aborted = false) :
    Operates engine i rows (fun result t' => ∀ key, result = .ok key → Added rows t.writes key t') (provisionKey input attempts) t := by
  cases attempts with
  | zero =>
    refine Operates.done fun key hResult => ?_
    cases hResult
  | succ attempts =>
    refine provisionKey_draws fun id keyPrefix secret => ?_
    have hAttempt : Operates engine i rows (Attempted rows t.writes) (insertKey input id keyPrefix secret) t :=
      insertKey_operates hOpen
    refine hAttempt.tryCatch ?_ ?_
    · intro key t' hAttempt key' hResult
      cases hResult
      exact hAttempt.1 key rfl
    · intro e t' hAttempt
      split
      · rename_i hAgain
        refine Operates.mono (provisionKey_stuck (hAttempt.2 e rfl hAgain.1)) ?_
        rintro result _ ⟨e', rfl⟩ key hResult
        cases hResult
      · refine Operates.done fun key hResult => ?_
        cases hResult

def Keeps {α : Type} (t : Transaction Row) (result : Except Failure α) (t' : Transaction Row) : Prop :=
  ∀ a, result = .ok a → t' = t

theorem keeps_error {α : Type} {e : Failure} {t' : Transaction Row} : Keeps t (.error e : Except Failure α) t' := by
  intro a hResult
  cases hResult

theorem selectForUpdate_reads {α : Type} {k : Key} {qualifies : Row k → Bool} {found : Row k → α} :
    (selectForUpdate db k qualifies found).writes = [] := by
  obtain ⟨v, _, _, hLock⟩ | ⟨_, hRead⟩ := selectForUpdate_spec (Eq.refl (selectForUpdate db k qualifies found))
  · rw [hLock]
    rfl
  · rw [hRead]
    rfl

theorem lockOrganization_operates {o : Uuid} (hOpen : t.aborted = false) :
    Operates engine i rows (Keeps t) (lockOrganization o) t := by
  unfold lockOrganization
  refine Operates.query_read hOpen ?_ ?_ ?_
  · exact fun _ => selectForUpdate_reads
  · exact fun _ => keeps_error
  · exact fun _ => Operates.done fun _ _ => rfl

theorem enforceQuota_operates {o : Uuid} {resource : Resource} (hOpen : t.aborted = false) :
    Operates engine i rows (Keeps t) (enforceQuota o resource) t := by
  unfold enforceQuota
  refine Operates.bind (lockOrganization_operates hOpen) ?_ ?_
  · exact fun _ _ _ => keeps_error
  · intro locked t' hKeeps
    cases hKeeps locked rfl
    refine Operates.throwIf ?_ ?_
    · exact fun _ => keeps_error
    · intro _
      refine Operates.query_read hOpen ?_ ?_ ?_
      · exact fun _ => rfl
      · exact fun _ => keeps_error
      · intro record
        cases record with
        | none => exact Operates.done keeps_error
        | some usage =>
          obtain ⟨count, quota⟩ := usage
          dsimp only
          rw [← Program.bind_pure (Program.throwIf (quota ≤ count) (TenantQuotaError resource.text))]
          refine Operates.throwIf ?_ ?_
          · exact fun _ => keeps_error
          · exact fun _ => Operates.done fun _ _ => rfl

theorem createIngestKey_operates (hOpen : t.aborted = false) :
    Operates engine i rows (fun result t' => ∀ key, result = .ok key → Added rows t.writes key t') (createIngestKey input) t := by
  have hThrow : ∀ (e : Failure) (t' : Transaction Row) (key : ProvisionedIngestKey),
      (Except.error e : Except Failure ProvisionedIngestKey) = .ok key → Added rows t.writes key t' := by
    intro e t' key hResult
    cases hResult
  unfold createIngestKey
  refine Operates.throwIf ?_ ?_
  · exact fun _ => hThrow _ _
  · intro _
    refine Operates.query_read hOpen ?_ ?_ ?_
    · exact fun _ => rfl
    · exact fun _ => hThrow _ _
    · intro organizationId
      cases organizationId with
      | none => exact Operates.done (hThrow _ _)
      | some o =>
        refine Operates.bind (enforceQuota_operates hOpen) ?_ ?_
        · exact fun e t' _ => hThrow e t'
        · intro a t' hKeeps
          cases hKeeps a rfl
          exact provisionKey_operates hOpen

/-! ## Rotation -/

def IsActive (db : Db) (id : Uuid) (ingestKey : IngestKey) : Prop :=
  db.row (.ingestKey id) = some ingestKey ∧ ingestKey.revokedAt = none

def SameActive (before after : Db) : Prop := ∀ id ingestKey, IsActive after id ingestKey ↔ IsActive before id ingestKey

/-- The old key was revoked, one key was added, and nothing else is different. -/
structure Rotated (before after : Db) (keyId : Uuid) (key : ProvisionedIngestKey) : Prop where
  revoked : ∃ old, IsActive before keyId old
  absent : before.row (.ingestKey key.id) = none
  added : ∃ new, IsActive after key.id new ∧ new.secretSha256 = sha256 key.secret
  others : ∀ id ingestKey, id ≠ key.id → (IsActive after id ingestKey ↔ id ≠ keyId ∧ IsActive before id ingestKey)

def rotation (keyId : Uuid) (old : IngestKey) (now : Nat) (id : Uuid) (new : IngestKey) (tail : List Write) : List Write :=
  set (.ingestKey keyId) { old with revokedAt := some now } :: (keyEntries id new ++ tail)

theorem rotation_rotated {before : Db} {old new : IngestKey} {key : ProvisionedIngestKey} {tail : List Write}
    (hOld : IsActive before keyId old) (hAbsent : before.row (.ingestKey key.id) = none) (hNew : new.revokedAt = none)
    (hHash : new.secretSha256 = sha256 key.secret) (hTail : ∀ change ∈ tail, IsAudit change) :
    Rotated before (before.apply (rotation keyId old now key.id new tail)) keyId key := by
  have hDiffer : keyId ≠ key.id := by
    rintro rfl
    rw [hOld.1] at hAbsent
    cases hAbsent
  have hRow : ∀ id, (before.apply (rotation keyId old now key.id new tail)).row (.ingestKey id) =
      if id = key.id then some new else if id = keyId then some { old with revokedAt := some now }
      else before.row (.ingestKey id) := by
    intro id
    have hPast : ∀ db' : Db, (db'.apply tail).row (.ingestKey id) = db'.row (.ingestKey id) := by
      refine fun db' => Rows.apply_of_unwritten fun change hMem hKey => ?_
      obtain ⟨event, hEvent⟩ := hTail change hMem
      rw [hEvent] at hKey
      cases hKey
    rw [rotation, Rows.apply_cons, Rows.apply_append, hPast]
    by_cases hNewId : id = key.id
    · subst hNewId
      simp [keyEntries]
    · by_cases hOldId : id = keyId
      · subst hOldId
        simp [keyEntries, hDiffer]
      · simp [keyEntries, hNewId, hOldId]
  refine ⟨⟨old, hOld⟩, hAbsent, ⟨new, ⟨?_, hNew⟩, hHash⟩, ?_⟩
  · rw [hRow, if_pos rfl]
  · intro id ingestKey hOther
    rw [IsActive, hRow, if_neg hOther]
    by_cases hOldId : id = keyId
    · rw [if_pos hOldId]
      constructor
      · rintro ⟨hRevoked, hActive⟩
        cases hRevoked
        cases hActive
      · exact fun h => absurd hOldId h.1
    · rw [if_neg hOldId]
      exact ⟨fun h => ⟨hOldId, h⟩, fun h => h.2⟩

def RotationEnds (rows : Db) (before : List Write) (keyId : Uuid) (result : Except Failure (Option ProvisionedIngestKey))
    (t : Transaction Row) : Prop :=
  (result = .ok none → t.writes = before) ∧
    ∀ key, result = .ok (some key) → t.aborted = false ∧ Rotated (rows.apply before) (rows.apply t.writes) keyId key

theorem rotationEnds_error {before : List Write} {e : Failure} : RotationEnds rows before keyId (.error e) t := by
  constructor
  · intro hResult
    cases hResult
  · intro key hResult
    cases hResult

theorem rotationEnds_none {before : List Write} (h : t.writes = before) : RotationEnds rows before keyId (.ok none) t := by
  constructor
  · exact fun _ => h
  · intro key hResult
    cases hResult

theorem rotateIngestKey_operates (hOpen : t.aborted = false) :
    Operates engine i rows (RotationEnds rows t.writes keyId) (rotateIngestKey input keyId) t := by
  unfold rotateIngestKey
  refine Operates.query hOpen ?_ ?_
  · exact fun _ => rotationEnds_error
  · intro busy found outcome hRun hReply
    obtain ⟨old, hRow, hQualifies, rfl⟩ | ⟨_, rfl⟩ := selectForUpdate_spec hRun
    · cases hReply
      have hActive : old.projectId = input.projectId ∧ old.revokedAt = none := by simpa using hQualifies
      have hSame : ({ t with writes := t.writes ++ [] } : Transaction Row) = t := by rw [List.append_nil]
      change Operates engine i rows _ _ { t with writes := t.writes ++ [] }
      rw [hSame]
      refine Operates.query hOpen ?_ ?_
      · exact fun _ => rotationEnds_error
      · intro busy revoked outcome hRun _
        have hRevoked : outcome.writes = [set (.ingestKey keyId) { old with revokedAt := some t.now }] := by
          obtain ⟨v, hSeen, _, rfl⟩ | ⟨hNone, _⟩ := update_spec hRun
          · rw [hRow] at hSeen
            cases hSeen
            rfl
          · have hOther := hNone old hRow
            simp [hActive.1] at hOther
        rw [hRevoked]
        refine Operates.bind (createIngestKey_operates hOpen) ?_ ?_
        · exact fun _ _ _ => rotationEnds_error
        · intro key t' hAdded
          obtain ⟨hRunning, ⟨new, tail, hWritten, hTail, hNew, hHash⟩, hFresh⟩ := hAdded key rfl
          refine Operates.bind (writeIngestKeyAuditEvent_operates hRunning) ?_ ?_
          · exact fun _ _ _ => rotationEnds_error
          · intro a t'' hAudits
            obtain ⟨hStill, more, hMore, hAudit⟩ := hAudits.1 a rfl
            have hAll : t''.writes = t.writes ++ rotation keyId old t.now key.id new (tail ++ more) := by
              rw [hMore, hWritten]
              simp [rotation]
            have hDiffer : keyId ≠ key.id := by
              rintro rfl
              simp [Rows.apply_append] at hFresh
            have hAbsent : (rows.apply t.writes).row (.ingestKey key.id) = none := by
              simpa [Rows.apply_append, hDiffer.symm] using hFresh
            refine Operates.done ⟨?_, ?_⟩
            · intro hResult
              cases hResult
            · intro key' hResult
              cases hResult
              refine ⟨hStill, ?_⟩
              rw [hAll, Rows.apply_append]
              refine rotation_rotated ⟨hRow, hActive.2⟩ hAbsent hNew hHash ?_
              exact List.forall_mem_append.mpr ⟨hTail, hAudit⟩
    · cases hReply
      exact Operates.done (rotationEnds_none (List.append_nil _))

theorem rotateKey_operates (hOpen : t.aborted = false) :
    Operates engine i rows (RotationEnds rows t.writes keyId) (rotateKey input keyId) t := by
  unfold rotateKey withAuthorizedMutation lockTarget
  refine Operates.query_read hOpen ?_ ?_ ?_
  · intro busy
    change (selectProjectOrganizationForUpdate (rows.apply t.writes) input.projectId).writes = []
    unfold selectProjectOrganizationForUpdate
    split
    · exact selectForUpdate_reads
    · rfl
  · exact fun _ => rotationEnds_error
  · intro organizationId
    cases organizationId with
    | none => exact Operates.done (rotationEnds_none rfl)
    | some o =>
      refine Operates.query_read hOpen ?_ ?_ ?_
      · exact fun _ => rfl
      · exact fun _ => rotationEnds_error
      · intro role
        cases role with
        | none => exact Operates.done (rotationEnds_none rfl)
        | some role =>
          dsimp only
          split
          · exact rotateIngestKey_operates hOpen
          · exact Operates.done (rotationEnds_none rfl)

/-- Whatever fails: either the active keys are as before, or one replaced the other. -/
def RotatesAtomically (i : ClientId) (s : Sql.Server Row ClientId World) (rotate : Program (Option ProvisionedIngestKey))
    (keyId : Uuid) : Prop :=
  ∀ note : Option ProvisionedIngestKey → Note, (transaction note rotate).Ensures (answered engine i) (fun _ _ => True)
    (fun _ => True) (fun result session => (∀ e, result = .error e → SameActive s.rows session.2.rows) ∧
      (result = .ok none → SameActive s.rows session.2.rows) ∧
      ∀ key, result = .ok (some key) → Rotated s.rows session.2.rows keyId key) (none, s)

theorem rotatesAtomically {s : Sql.Server Row ClientId World} {rotate : Program (Option ProvisionedIngestKey)}
    (h : Operates engine i s.rows (RotationEnds s.rows [] keyId) rotate ⟨s.clock, [], false⟩) :
    RotatesAtomically i s rotate keyId := by
  intro note
  refine (Operates.transaction h).mono (fun _ hTrue => hTrue) ?_
  rintro result session _ ⟨hError, hOk⟩
  refine ⟨?_, ?_, ?_⟩
  · intro e hResult id ingestKey
    rw [hError e hResult]
  · intro hResult id ingestKey
    obtain ⟨t, hEnd, hRows⟩ := hOk none hResult
    rw [hRows, hEnd.1 rfl, Rows.apply_nil, ite_self]
  · intro key hResult
    obtain ⟨t, hEnd, hRows⟩ := hOk (some key) hResult
    obtain ⟨hRunning, hRotated⟩ := hEnd.2 key rfl
    rw [hRows, if_neg (by simp [hRunning])]
    exact hRotated

end Rotate

/-- A new key is there whenever one of the three prefixes is not in use, and rotations are atomic, just where the first
prefix is not in use or all of them are. -/
theorem provisioning_survives_iff {c : Committed Row World} {i : ClientId} {now : Nat} {writes : List Write}
    {input : IngestKeyInput} {first second third : KeyDraw} {last : Uuid}
    (h : Provisionable (c.rows.apply writes) now input [first.id, second.id, third.id, last]) :
    ((∃ d ∈ [first, second, third], ¬PrefixInUse (c.rows.apply writes) d.keyPrefix) →
      Provisioned i c now writes input (first.chances ++ (second.chances ++ (third.chances ++ [.uuid last])))) ∧
    (∀ (s : Sql.Server Row ClientId World) (renewal : IngestKeyInput) (keyId : Uuid),
      RotatesAtomically i s (rotateIngestKey renewal keyId) keyId ∧ RotatesAtomically i s (rotateKey renewal keyId) keyId) ↔
      ¬PrefixInUse (c.rows.apply writes) first.keyPrefix ∨
        ∀ d ∈ [first, second, third], PrefixInUse (c.rows.apply writes) d.keyPrefix := by
  constructor
  · rintro ⟨hSurvives, _⟩
    by_contra hNeither
    obtain ⟨hUsed, hSome⟩ := not_or.mp hNeither
    have hUnused : ∃ d ∈ [first, second, third], ¬PrefixInUse (c.rows.apply writes) d.keyPrefix := by
      by_contra hNone
      exact hSome fun d hMem => by_contra fun hUnused => hNone ⟨d, hMem, hUnused⟩
    exact createIngestKey_fails h (not_not.mp hUsed) (hSurvives hUnused)
  · intro hCondition
    constructor
    · rintro ⟨d, hMem, hUnused⟩
      cases hCondition with
      | inl hFirst => exact createIngestKey_leads h (by simp) (by simp) hFirst
      | inr hAll => exact absurd (hAll d hMem) hUnused
    · intro s renewal keyId
      have hRotation : Operates engine i s.rows (RotationEnds s.rows [] keyId) (rotateIngestKey renewal keyId)
          ⟨s.clock, [], false⟩ := rotateIngestKey_operates (t := ⟨s.clock, [], false⟩) rfl
      have hRoute : Operates engine i s.rows (RotationEnds s.rows [] keyId) (rotateKey renewal keyId)
          ⟨s.clock, [], false⟩ := rotateKey_operates (t := ⟨s.clock, [], false⟩) rfl
      exact ⟨rotatesAtomically hRotation, rotatesAtomically hRoute⟩

/-! ## A project with one key -/

def oneKey : Committed Row World where
  rows := Rows.empty.apply [
    set (.organization 0) (⟨"acme", "Acme", none⟩ : Organization), set (.organizationQuota 0) ({} : OrganizationQuota),
    set (.project 1) (⟨0, "shop", "Shop"⟩ : Project),
    set (.ingestKey 2) (⟨1, "ci", "0a1b2c3d4e5f", "", days 1, "owner", none, none⟩ : IngestKey),
    set (.ingestKeyPrefix "0a1b2c3d4e5f") (2 : Nat)]
  world := {}
  clock := 0

def nightlyKey : IngestKeyInput := ⟨1, "owner", "nightly", 30⟩

theorem oneKey_indexed (keyPrefix : String) :
    present oneKey.rows (.ingestKeyPrefix keyPrefix) = true ↔ PrefixInUse oneKey.rows keyPrefix := by
  constructor
  · intro hPresent
    by_cases hSame : keyPrefix = "0a1b2c3d4e5f"
    · subst hSame
      exact ⟨2, _, rfl, rfl⟩
    · simp [present, oneKey, hSame] at hPresent
  · rintro ⟨id, ingestKey, hRow, rfl⟩
    by_cases hSame : id = 2
    · subst hSame
      cases hRow
      rfl
    · simp [oneKey, hSame] at hRow

theorem oneKey_provisionable : Provisionable (oneKey.rows.apply []) 0 nightlyKey [3, 4, 5, 6] where
  expiry := by decide
  name := by decide +kernel
  storable := by decide +kernel
  available := ⟨_, _, rfl, rfl, rfl, by decide +kernel⟩
  fresh id hMem := by
    simp only [List.mem_cons, List.not_mem_nil, or_false] at hMem
    rcases hMem with rfl | rfl | rfl | rfl <;> exact ⟨rfl, rfl⟩
  indexed := oneKey_indexed

def collidingDraw : KeyDraw := ⟨3, "0a1b2c3d4e5f", "first secret"⟩

def secondDraw : KeyDraw := ⟨4, "ffffffffffff", "second secret"⟩

def thirdDraw : KeyDraw := ⟨5, "eeeeeeeeeeee", "third secret"⟩

theorem not_inUse_second : ¬PrefixInUse oneKey.rows "ffffffffffff" := fun hUsed =>
  absurd ((oneKey_indexed _).mpr hUsed) (by decide +kernel)

/-- The second prefix is not in use, and no key is created. -/
theorem collision_not_survived : ¬PrefixInUse oneKey.rows secondDraw.keyPrefix ∧
    ¬Provisioned 0 oneKey 0 [] nightlyKey
      (collidingDraw.chances ++ (secondDraw.chances ++ (thirdDraw.chances ++ [.uuid 6]))) :=
  ⟨not_inUse_second, createIngestKey_fails oneKey_provisionable ⟨2, _, rfl, rfl⟩⟩

def freshDraw : KeyDraw := ⟨3, "ffffffffffff", "first secret"⟩

theorem provisioning_survives_oneKey : Provisioned 0 oneKey 0 [] nightlyKey
    (freshDraw.chances ++ (secondDraw.chances ++ (thirdDraw.chances ++ [.uuid 6]))) := by
  have h : Provisionable (oneKey.rows.apply []) 0 nightlyKey [freshDraw.id, secondDraw.id, thirdDraw.id, 6] :=
    oneKey_provisionable
  exact ((provisioning_survives_iff h).mpr (.inl not_inUse_second)).1 ⟨freshDraw, List.mem_cons_self, not_inUse_second⟩

end GhostApi.Hosted
