import GhostApi.Hosted.Submission
import GhostApi.Lib.Mutation
import GhostApi.Lib.Sql.Alone

/-!
# A submission that is alone

What a call answers follows from the committed rows: a call with a fresh key
stores a report unless its content is stored or its payload has a character
that the database cannot hold, and a call with a known key and another hash is
refused.
-/

namespace GhostApi.Hosted

open Js Sql Effect Transition

section Statements

variable {db : Db} {references : List Key} {entries : List Write} {o : Uuid} {now : Nat} {resource : Resource}

theorem insert_done (hFresh : ∀ entry ∈ entries, db.row entry.key = none) (hReferences : ∀ k ∈ references, present db k = true) :
    insert db references true entries = write entries () := by
  have hAbsent : ¬(entries.map (·.key)).any (present db) = true := by
    rw [List.any_map, List.any_eq_true]
    rintro ⟨entry, hMem, hPresent⟩
    rw [Function.comp_apply, absent_iff.mpr (hFresh entry hMem)] at hPresent
    cases hPresent
  have hAll : ¬(!references.all (present db)) = true := by
    simpa using hReferences
  unfold insert
  simp only [Bool.not_true, Bool.false_eq_true, if_false]
  rw [if_neg hAbsent, if_neg hAll]

theorem insert_violates {entry : Write} (hMem : entry ∈ entries) (hPresent : present db entry.key = true) :
    insert db references true entries = { locks := entries.map (·.key), reply := .error uniqueViolation } := by
  have hAny : (entries.map (·.key)).any (present db) = true := by
    rw [List.any_map, List.any_eq_true]
    exact ⟨entry, hMem, hPresent⟩
  unfold insert
  simp only [Bool.not_true, Bool.false_eq_true, if_false]
  rw [if_pos hAny]

theorem counts_congr {db' : Db} (h : ∀ p, belongs db' o p = belongs db o p) :
    counts db' o now resource = counts db o now resource := by
  funext k v
  unfold counts
  split <;> simp only [h]

theorem usage_put_ledger {p : Uuid} {key : String} {record : IdempotencyRecord} :
    usage (db.put (set (.idempotency p key) record)) o now resource = usage db o now resource := by
  have hCounts : counts (db.put (set (.idempotency p key) record)) o now resource = counts db o now resource :=
    counts_congr fun _ => by simp [belongs]
  have hOther : ∀ {k v}, counts db o now resource k v = true → k ≠ .idempotency p key := by
    rintro k v hCount rfl
    cases resource <;> cases hCount
  rw [usage, usage, hCounts]
  refine Nat.le_antisymm (Rows.count_mono ?_) (Rows.count_mono ?_)
  · rintro k ⟨v, hRow, hCount⟩
    exact ⟨v, by simpa [hOther hCount] using hRow, hCount⟩
  · rintro k ⟨v, hRow, hCount⟩
    exact ⟨v, by simpa [hOther hCount] using hRow, hCount⟩

end Statements

section Alone

variable {c : Committed Row World} {i : ClientId} {input : ReportInput} {id e o : Uuid} {now : Nat} {draws : List Chance}
  {writes : List Write} {resource : Resource} {record : IdempotencyRecord}

theorem leads_randomUUID : Leads engine i c now (external .randomUUID) (.uuid id :: draws) writes id draws writes :=
  leads_external rfl

theorem leads_enforceQuota {quota : OrganizationQuota}
    (hOrganization : present (c.rows.apply writes) (.organization o) = true)
    (hQuota : (c.rows.apply writes).row (.organizationQuota o) = some quota)
    (hBelow : usage (c.rows.apply writes) o now resource < quota.of resource) :
    Leads engine i c now (enforceQuota o resource) draws writes () draws writes := by
  obtain ⟨organization, hRow⟩ := present_iff.mp hOrganization
  have hLock : ∀ busy : Key → Bool, engine.execute (.selectOrganizationForUpdate o) now busy (c.rows.apply writes) =
      lockRow (.organization o) (some o) := by
    intro busy
    change selectForUpdate _ _ _ _ = _
    rw [selectForUpdate, hRow]
    rfl
  have hRead : ∀ busy : Key → Bool, engine.execute (.selectUsage o resource) now busy (c.rows.apply writes) =
      read (some (usage (c.rows.apply writes) o now resource, quota.of resource)) := by
    intro busy
    change read _ = _
    rw [hQuota]
    rfl
  have hLocked : Leads engine i c now (lockOrganization o) draws writes true draws writes :=
    (leads_read _ hLock rfl rfl).bind (leads_pure true)
  refine hLocked.bind ((leads_throwIf (by simp)).bind ((leads_read _ hRead rfl rfl).bind ?_))
  exact leads_throwIf (Nat.not_le.mpr hBelow)

theorem conflict_fails (hValid : IsValid input)
    (hRow : c.rows.row (.idempotency input.projectId input.idempotencyKey) = some record)
    (hHash : record.requestSha256 ≠ requestHash input.report) :
    Fails engine i c c.clock (acceptReport input) (.uuid id :: draws) [] conflictError draws := by
  have hInsert : ∀ busy : Key → Bool, engine.execute (.insertIdempotency input.projectId input.idempotencyKey
      (requestHash input.report) id IDEMPOTENCY_RETENTION_DAYS) c.clock busy (c.rows.apply []) = read false := by
    intro busy
    change insertOrNothing _ _ _ _ = _
    rw [insertOrNothing, Rows.apply_nil, if_pos (present_iff.mpr ⟨record, hRow⟩)]
  have hSelect : ∀ busy : Key → Bool, engine.execute (.selectIdempotencyForUpdate input.projectId input.idempotencyKey)
      c.clock busy (c.rows.apply []) = lockRow input.key (some (record.reportId, record.requestSha256)) := by
    intro busy
    change selectForUpdate _ _ _ _ = _
    rw [selectForUpdate, Rows.apply_nil, hRow]
    rfl
  have hDiffers : constantTimeHexEqual record.requestSha256 (requestHash input.report) = false :=
    Bool.eq_false_iff.mpr fun hEqual => hHash (hash_of_equal hEqual)
  refine (leads_lift hValid.1).thenFails ((leads_lift hValid.2).thenFails (leads_randomUUID.thenFails ?_))
  refine (leads_read _ hInsert rfl rfl).thenFails ((leads_read _ hSelect rfl rfl).thenFails ?_)
  exact (fails_throwIf hDiffers).bind

structure Acceptable (c : Committed Row World) (input : ReportInput) (id e : Uuid) : Prop where
  valid : IsValid input
  unrecorded : c.rows.row (.idempotency input.projectId input.idempotencyKey) = none
  keyed : present c.rows (.ingestKey input.ingestKeyId) = true
  available : ∃ (project : Project) (quota : OrganizationQuota), c.rows.row (.project input.projectId) = some project ∧
    c.rows.row (.organizationQuota project.organizationId) = some quota ∧
    usage c.rows project.organizationId c.clock .reports < quota.reports
  report : c.rows.row (.report id) = none
  event : c.rows.row (.outboxEvent e) = none

def ReportInput.toRecord (input : ReportInput) (id : Uuid) (now : Nat) : IdempotencyRecord :=
  ⟨requestHash input.report, id, now, now + days IDEMPOTENCY_RETENTION_DAYS⟩

theorem length_le_codeUnits (cs : List Char) : cs.length ≤ Js.lengthOf cs := by
  induction cs with
  | nil => exact Nat.le_refl 0
  | cons c cs ih =>
    have hUnits : 1 ≤ codeUnits c := by
      unfold codeUnits
      split <;> omega
    simp only [Js.lengthOf, List.map_cons, List.sum_cons, List.length_cons] at ih ⊢
    omega

theorem hasLength_of_isRunId {runId : String} (h : isRunId runId = true) : hasLength 1 128 runId = true := by
  simp only [isRunId, Bool.and_eq_true, decide_eq_true_eq] at h
  obtain ⟨⟨hSome, hMost⟩, _⟩ := h
  have hLength := length_le_codeUnits runId.toList
  have hNonempty : 1 ≤ runId.toList.length := by
    by_contra hEmpty
    have hNil : runId.toList = [] := List.length_eq_zero_iff.mp (Nat.lt_one_iff.mp (Nat.lt_of_not_le hEmpty))
    simp [Js.length, hNil, Js.lengthOf] at hSome
  simp only [hasLength, Bool.and_eq_true, decide_eq_true_eq]
  exact ⟨hNonempty, Nat.le_trans hLength hMost⟩

theorem runId_of_valid (h : IsValid input) : hasLength 1 128 (runIdOf input.report) = true := by
  obtain ⟨_, hReport⟩ := h
  unfold validateReport at hReport
  obtain ⟨_, hShape, _⟩ := bind_eq_ok hReport
  unfold checkIf at hShape
  split at hShape
  · cases hShape
  · rename_i hPasses
    obtain ⟨_, hRunId, _⟩ := not_not.mp hPasses
    unfold isRunIdValue at hRunId
    unfold runIdOf
    split at hRunId
    · exact hasLength_of_isRunId hRunId
    · cases hRunId

/-! ## Fresh keys -/

/-- The report cannot be stored: its content is there, or jsonb cannot hold it. -/
def Unstorable (db : Db) (input : ReportInput) : Prop :=
  (∃ r, HasContent db r input.projectId (runIdOf input.report) (requestHash input.report)) ∨
    hasNul (payloadOf input.report) = true

def storeReport (input : ReportInput) (id : Uuid) : Program AcceptedReport := do
  query (.insertReport id input.projectId input.ingestKeyId (runIdOf input.report) (requestHash input.report)
    (payloadOf input.report))
  let eventId ← external .randomUUID
  query (.insertOutboxEvent eventId id)
  return ⟨id, .accepted⟩

variable (h : Acceptable c input id e)

include h

/-- What a call with a fresh key does before it stores the report. -/
structure Prepares (c : Committed Row World) (i : ClientId) (input : ReportInput) (id o : Uuid) : Prop where
  inserts : ∀ draws, Leads engine i c c.clock (query (.insertIdempotency input.projectId input.idempotencyKey
    (requestHash input.report) id IDEMPOTENCY_RETENTION_DAYS)) draws [] true draws
    [set (.idempotency input.projectId input.idempotencyKey) (input.toRecord id c.clock)]
  finds : ∀ draws, Leads engine i c c.clock (organizationIdForProject input.projectId) draws
    [set (.idempotency input.projectId input.idempotencyKey) (input.toRecord id c.clock)] (some o) draws
    [set (.idempotency input.projectId input.idempotencyKey) (input.toRecord id c.clock)]
  enforces : ∀ draws, Leads engine i c c.clock (enforceQuota o .reports) draws
    [set (.idempotency input.projectId input.idempotencyKey) (input.toRecord id c.clock)] () draws
    [set (.idempotency input.projectId input.idempotencyKey) (input.toRecord id c.clock)]

variable (h : Acceptable c input id e) (hHoused : ∀ {project : Project},
  c.rows.row (.project input.projectId) = some project → present c.rows (.organization project.organizationId) = true)

include h hHoused

theorem fresh_prepares : ∃ o, Prepares c i input id o := by
  obtain ⟨project, quota, hProject, hQuota, hBelow⟩ := h.available
  have hOrganization := hHoused hProject
  refine ⟨project.organizationId, fun draws => ?_, fun draws => ?_, fun draws => ?_⟩
  · refine leads_query (write [set (.idempotency input.projectId input.idempotencyKey) (input.toRecord id c.clock)] true)
      (fun busy => ?_) rfl
    change insertOrNothing _ _ _ _ = _
    rw [Rows.apply_nil, insertOrNothing, if_neg (by simp [absent_iff.mpr h.unrecorded]), if_neg (by simp [present, hProject])]
    rfl
  · refine leads_read (read (some project.organizationId)) (fun busy => ?_) rfl rfl
    change read _ = _
    congr 1
    simp [hProject]
  · have hOrganization₁ : present (c.rows.apply [set (.idempotency input.projectId input.idempotencyKey)
        (input.toRecord id c.clock)]) (.organization project.organizationId) = true := by
      simpa [present] using hOrganization
    have hQuota₁ : (c.rows.apply [set (.idempotency input.projectId input.idempotencyKey)
        (input.toRecord id c.clock)]).row (.organizationQuota project.organizationId) = some quota := by
      simpa using hQuota
    refine leads_enforceQuota hOrganization₁ hQuota₁ ?_
    rw [Rows.apply_cons, Rows.apply_nil, usage_put_ledger]
    exact hBelow

theorem accept_leads {accepted : AcceptedReport} {rest : List Chance} {writes' : List Write}
    (hStore : Leads engine i c c.clock (storeReport input id) draws
      [set (.idempotency input.projectId input.idempotencyKey) (input.toRecord id c.clock)] accepted rest writes') :
    Leads engine i c c.clock (acceptReport input) (.uuid id :: draws) [] accepted rest writes' := by
  obtain ⟨o, hPrepares⟩ := fresh_prepares h hHoused
  refine (leads_lift h.valid.1).bind ((leads_lift h.valid.2).bind (leads_randomUUID.bind ((hPrepares.inserts draws).bind ?_)))
  exact (hPrepares.finds draws).bind ((hPrepares.enforces draws).bind hStore)

theorem accept_fails {error : Failure} {rest : List Chance}
    (hStore : Fails engine i c c.clock (storeReport input id) draws
      [set (.idempotency input.projectId input.idempotencyKey) (input.toRecord id c.clock)] error rest) :
    Fails engine i c c.clock (acceptReport input) (.uuid id :: draws) [] error rest := by
  obtain ⟨o, hPrepares⟩ := fresh_prepares h hHoused
  refine (leads_lift h.valid.1).thenFails ((leads_lift h.valid.2).thenFails
    (leads_randomUUID.thenFails ((hPrepares.inserts draws).thenFails ?_)))
  exact (hPrepares.finds draws).thenFails ((hPrepares.enforces draws).thenFails hStore)

omit hHoused

omit h in
theorem insertReport_stored {db : Db} {now : Nat} (hValid : IsValid input) : insertReport db id (input.stored now) =
    if hasNul (payloadOf input.report) = true then reject unsupportedCharacter
    else insert db [.project input.projectId, .ingestKey input.ingestKeyId] true [set (.report id) (input.stored now),
      set (.reportContent input.projectId (runIdOf input.report) (requestHash input.report)) id] := by
  rw [insertReport, show hasLength 1 128 (input.stored now).runId = true from runId_of_valid hValid]
  rfl

theorem store_fails (hStored : Unstorable c.rows input)
    (hIndexed : ∀ {projectId runId hash id}, c.rows.row (.reportContent projectId runId hash) = some id ↔
      HasContent c.rows id projectId runId hash) : ∃ d, Fails engine i c c.clock (storeReport input id) draws
      [set (.idempotency input.projectId input.idempotencyKey) (input.toRecord id c.clock)] (.database d) draws := by
  have hReport : ∀ busy : Key → Bool, engine.execute (.insertReport id input.projectId input.ingestKeyId
      (runIdOf input.report) (requestHash input.report) (payloadOf input.report)) c.clock busy
      (c.rows.apply [set (.idempotency input.projectId input.idempotencyKey) (input.toRecord id c.clock)]) =
      insertReport (c.rows.put (set (.idempotency input.projectId input.idempotencyKey) (input.toRecord id c.clock))) id
        (input.stored c.clock) := fun _ => rfl
  by_cases hText : hasNul (payloadOf input.report) = true
  · refine ⟨unsupportedCharacter, (fails_query _ hReport ?_).bind⟩
    rw [insertReport_stored h.valid, if_pos hText]
    rfl
  · obtain ⟨r, hContent⟩ := hStored.resolve_right hText
    have hIndex : (c.rows.put (set (.idempotency input.projectId input.idempotencyKey) (input.toRecord id c.clock))).row
        (.reportContent input.projectId (runIdOf input.report) (requestHash input.report)) = some r := by
      simpa using hIndexed.mpr hContent
    refine ⟨uniqueViolation, (fails_query _ hReport ?_).bind⟩
    rw [insertReport_stored h.valid, if_neg hText, insert_violates (List.mem_cons_of_mem _ List.mem_cons_self)
      (present_iff.mpr ⟨r, hIndex⟩)]

theorem store_leads (hStorable : ¬Unstorable c.rows input)
    (hIndexed : ∀ {projectId runId hash id}, c.rows.row (.reportContent projectId runId hash) = some id ↔
      HasContent c.rows id projectId runId hash) : Leads engine i c c.clock (storeReport input id) (.uuid e :: draws)
      [set (.idempotency input.projectId input.idempotencyKey) (input.toRecord id c.clock)] ⟨id, .accepted⟩ draws
      (newRows input id e (input.toRecord id c.clock) (input.stored c.clock) (acceptedEvent id e c.clock)) := by
  obtain ⟨hContent, hText⟩ := not_or.mp hStorable
  obtain ⟨project, _, hProject, _⟩ := h.available
  have hReport := h.report
  have hEvent := h.event
  have hKeyed := h.keyed
  have hIndex : c.rows.row (.reportContent input.projectId (runIdOf input.report) (requestHash input.report)) = none := by
    cases hRow : c.rows.row (.reportContent input.projectId (runIdOf input.report) (requestHash input.report)) with
    | none => rfl
    | some r => exact absurd ⟨r, hIndexed.mp hRow⟩ hContent
  refine Leads.bind (leads_query (write [set (.report id) (input.stored c.clock),
    set (.reportContent input.projectId (runIdOf input.report) (requestHash input.report)) id] ()) (fun busy => ?_) rfl) ?_
  · change insertReport _ id (input.stored c.clock) = _
    rw [insertReport_stored h.valid, if_neg hText]
    refine insert_done ?_ ?_
    · simp [hReport, hIndex]
    · simpa [present, hProject] using hKeyed
  · refine leads_randomUUID.bind (Leads.bind (leads_query (write [set (.outboxEvent e) (acceptedEvent id e c.clock)] ())
      (fun busy => ?_) rfl) (leads_pure _))
    change insertOutboxEvent _ _ _ _ = _
    refine insert_done ?_ ?_
    · simp [write, hEvent]
    · simp [write, present]

def IsMark (input : ReportInput) (change : Write) : Prop :=
  ∃ ingestKey : IngestKey, change = set (.ingestKey input.ingestKeyId) ingestKey

omit h in
theorem IsMark.aside {change : Write} (hMark : IsMark input change) : IsAsideKey change.key := by
  obtain ⟨ingestKey, rfl⟩ := hMark
  exact fun _ _ => trivial

omit h in
theorem mark_leads : ∃ tail : List Write, (∀ change ∈ tail, IsMark input change) ∧
    Leads engine i c now (markIngestKeyUsed input.projectId input.ingestKeyId) draws writes () draws (writes ++ tail) := by
  generalize hRun : updateKeyUsed (c.rows.apply writes) now input.projectId input.ingestKeyId = outcome
  have hLeads : ∀ a, outcome.reply = .ok a →
      Leads engine i c now (markIngestKeyUsed input.projectId input.ingestKeyId) draws writes () draws
        (writes ++ outcome.writes) := fun a hReply => (leads_query outcome (fun _ => hRun) hReply).bind (leads_pure ())
  refine ⟨outcome.writes, ?_, ?_⟩
  · obtain ⟨ingestKey, _, _, rfl⟩ | ⟨_, rfl⟩ := update_spec hRun
    · rintro change hMem
      cases List.mem_singleton.mp hMem
      exact ⟨_, rfl⟩
    · exact fun _ hMem => nomatch hMem
  · obtain ⟨_, _, _, rfl⟩ | ⟨_, rfl⟩ := update_spec hRun
    · exact hLeads _ rfl
    · exact hLeads _ rfl

omit h in
theorem deferred_newRows {db : Db} {tail : List Write} {report : Report} {event : OutboxEvent}
    (hId : record.reportId = id) (hTail : ∀ change ∈ tail, IsMark input change) :
    deferred (newRows input id e record report event ++ tail) db = none := by
  have hAfter : After db (db.apply (newRows input id e record report event ++ tail)) input id e record report event :=
    after_newRows fun change hMem => (hTail change hMem).aside
  have hKeys : ∀ change ∈ newRows input id e record report event ++ tail,
      keepsReferences (db.apply (newRows input id e record report event ++ tail)) change.key = true ∧
        keepsOwner db (db.apply (newRows input id e record report event ++ tail)) change.key = true := by
    intro change hMem
    rcases List.mem_append.mp hMem with hMem | hMem
    · simp only [newRows, List.mem_cons, List.not_mem_nil, or_false] at hMem
      rcases hMem with rfl | rfl | rfl | rfl
      · refine ⟨?_, rfl⟩
        simp only [keepsReferences, set_key, hAfter.ledger]
        exact present_iff.mpr ⟨report, hId ▸ hAfter.stored⟩
      · refine ⟨?_, rfl⟩
        simp only [keepsReferences, set_key, present, hAfter.stored]
        rfl
      · exact ⟨rfl, rfl⟩
      · exact ⟨rfl, rfl⟩
    · obtain ⟨ingestKey, rfl⟩ := hTail change hMem
      exact ⟨rfl, rfl⟩
  exact deferred_of_keeps (fun change hMem => (hKeys change hMem).1) fun change hMem => (hKeys change hMem).2

include hHoused

theorem submit_accepts (hStorable : ¬Unstorable c.rows input)
    (hIndexed : ∀ {projectId runId hash id}, c.rows.row (.reportContent projectId runId hash) = some id ↔
      HasContent c.rows id projectId runId hash) : ∃ tail : List Write, (∀ change ∈ tail, IsMark input change) ∧
    Yields engine i (submitReport input) (.uuid id :: .uuid e :: draws) (none, ⟨c, fun _ => none⟩) (.ok ⟨id, .accepted⟩)
      draws (none, ⟨⟨c.rows.apply (newRows input id e (input.toRecord id c.clock) (input.stored c.clock)
        (acceptedEvent id e c.clock) ++ tail), Hosted.record (input.entry ⟨id, .accepted⟩) i c.world, c.clock⟩,
        fun _ => none⟩) := by
  obtain ⟨tail, hTail, hMark⟩ : ∃ tail : List Write, (∀ change ∈ tail, IsMark input change) ∧
      Leads engine i c c.clock (markIngestKeyUsed input.projectId input.ingestKeyId) draws
        (newRows input id e (input.toRecord id c.clock) (input.stored c.clock) (acceptedEvent id e c.clock)) () draws
        (newRows input id e (input.toRecord id c.clock) (input.stored c.clock) (acceptedEvent id e c.clock) ++ tail) :=
    mark_leads
  have hAccept : Leads engine i c c.clock (acceptReport input) (.uuid id :: .uuid e :: draws) [] ⟨id, .accepted⟩ draws
      (newRows input id e (input.toRecord id c.clock) (input.stored c.clock) (acceptedEvent id e c.clock)) :=
    accept_leads h hHoused (store_leads h hStorable hIndexed)
  exact ⟨tail, hTail, Leads.transaction (hAccept.bind (hMark.bind (leads_pure _))) (deferred_newRows rfl hTail)⟩

theorem submit_fails (hStored : Unstorable c.rows input)
    (hIndexed : ∀ {projectId runId hash id}, c.rows.row (.reportContent projectId runId hash) = some id ↔
      HasContent c.rows id projectId runId hash) : ∃ d, Yields engine i (submitReport input) (.uuid id :: draws)
      (none, ⟨c, fun _ => none⟩) (.error (.database d)) draws (none, ⟨c, fun _ => none⟩) := by
  obtain ⟨d, hStore⟩ := store_fails h hStored hIndexed
  exact ⟨d, (accept_fails h hHoused hStore).bind.transaction⟩

end Alone

/-! ## An empty report -/

def oneProject : Server where
  rows := Rows.empty.apply [
    set (.organization 0) (⟨"acme", "Acme", none⟩ : Organization), set (.organizationQuota 0) ({} : OrganizationQuota),
    set (.project 1) (⟨0, "shop", "Shop"⟩ : Project),
    set (.ingestKey 2) (⟨1, "ci", "gak", "", days 1, "owner", none, none⟩ : IngestKey)]
  world := {}
  clock := 0

def emptyReport : Json := .object [("payload", .object []), ("runId", .string "run"), ("schemaVersion", .number 1)]

def submission (key : String) : ReportInput := ⟨1, 2, key, emptyReport⟩

theorem validateReport_emptyReport : validateReport emptyReport = .ok () := by
  have hSize : emptyReport.canonical.utf8ByteSize ≤ MAX_REPORT_BYTES := by
    simp only [emptyReport, Json.canonical, Json.canonicalFields, Json.sortKeys, List.mergeSort_nil]
    rw [List.mergeSort_of_pairwise (by decide +kernel)]
    decide +kernel
  have hShape : isVersionOne (property emptyReport "schemaVersion") = true ∧
      isRunIdValue (property emptyReport "runId") = true ∧ isJsonObject (payloadOf emptyReport) = true := by decide +kernel
  have hPayload : rejectSensitiveValue 0 none (payloadOf emptyReport) = .ok () := by
    change rejectSensitiveValue 0 none (.object []) = .ok ()
    simp [rejectSensitiveValue, rejectSensitiveFields, checkIf]
    rfl
  unfold validateReport checkIf
  rw [if_neg (not_not.mpr hShape), hPayload, if_neg (Nat.not_lt.mpr hSize)]
  rfl

theorem oneProject_acceptable {key : String} (hKey : validateIdempotencyKey key = .ok ()) :
    Acceptable oneProject.toCommitted (submission key) 3 4 where
  valid := ⟨hKey, validateReport_emptyReport⟩
  unrecorded := by simp [oneProject]
  keyed := rfl
  available := ⟨_, _, rfl, rfl, by decide +kernel⟩
  report := rfl
  event := rfl

theorem oneProject_indexed {projectId : Uuid} {runId hash : String} {id : Uuid} :
    oneProject.rows.row (.reportContent projectId runId hash) = some id ↔ HasContent oneProject.rows id projectId runId hash := by
  simp [oneProject, HasContent]

theorem oneProject_housed {projectId : Uuid} {project : Project} (h : oneProject.rows.row (.project projectId) = some project) :
    present oneProject.rows (.organization project.organizationId) = true := by
  by_cases hSame : projectId = 1
  · subst hSame
    cases h
    rfl
  · simp [oneProject, hSame] at h

theorem submission_storable (key : String) : ¬Unstorable oneProject.rows (submission key) := by
  rintro (⟨r, hContent⟩ | hText)
  · exact absurd (oneProject_indexed.mpr hContent) (by simp [oneProject])
  · exact absurd (show hasNul (payloadOf emptyReport) = true from hText) (by decide)

theorem submission_run {admits : Call → Prop} {key : String} (hKey : validateIdempotencyKey key = .ok ())
    (hAdmits : admits (.submitReport (submission key))) : ∃ (events : List Event) (system : System) (tail : List Write),
      (service oneProject).Run (System.Allowed admits fun _ _ _ => True) events system ∧
      (∀ change ∈ tail, IsMark (submission key) change) ∧ system.server.clock = oneProject.clock ∧
      system.server.rows = oneProject.rows.apply (newRows (submission key) 3 4
        ((submission key).toRecord 3 oneProject.clock) ((submission key).stored oneProject.clock)
        (acceptedEvent 3 4 oneProject.clock) ++ tail) := by
  obtain ⟨tail, hTail, hYields⟩ : ∃ tail : List Write, _ ∧
      Yields engine 0 (submitReport (submission key)) [.uuid 3, .uuid 4] _ (.ok ⟨3, .accepted⟩) [] _ :=
    submit_accepts (oneProject_acceptable hKey) oneProject_housed (submission_storable key) oneProject_indexed
  have hCall : Yields engine 0 (Call.submitReport (submission key)).program [.uuid 3, .uuid 4] (none, oneProject) (.ok ()) [] _ :=
    hYields.bind rfl
  obtain ⟨events, system, hRun, hServer, _⟩ := run_of_call (Machine.Run.start (M := service oneProject)) hAdmits rfl hCall
  refine ⟨events, system, tail, hRun, hTail, ?_, ?_⟩
  · rw [hServer]
    rfl
  · rw [hServer]
    rfl

end GhostApi.Hosted
