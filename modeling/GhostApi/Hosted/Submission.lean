import GhostApi.Hosted.Ingestion

/-!
# Calls that submit a report

A call with a new key stores a record, a report with its index entry and an
event, all of them under locks that it keeps to its commit. A call with a
known key holds the record while it compares the hashes.
-/

namespace GhostApi.Hosted

open Js Sql Sql.Protocol Effect Transition

def ReportInput.key (input : ReportInput) : Key := .idempotency input.projectId input.idempotencyKey

def IsValid (input : ReportInput) : Prop :=
  validateIdempotencyKey input.idempotencyKey = .ok () ∧ validateReport input.report = .ok ()

def conflictError : Failure := .idempotencyConflict "Idempotency-Key was reused with a different request."

def IsNew (before after : Db) (k : Key) : Prop := present before k = false ∧ present after k = true

/-- A call with a new key makes one report and one event; every other call makes none. -/
def Creates (before after : Db) (accepted : AcceptedReport) : Prop :=
  match accepted.status with
  | .accepted => (∀ id, IsNew before after (.report id) ↔ id = accepted.reportId) ∧
    ∃ e, EventOf after e accepted.reportId ∧ ∀ e', IsNew before after (.outboxEvent e') ↔ e' = e
  | .duplicate => ∀ id, ¬IsNew before after (.report id) ∧ ¬IsNew before after (.outboxEvent id)

/-- A client that is watched still finds the record that it was told of. -/
def findsRecord (watched : Prop) : Guard := fun _ op session => match op, session with
  | .query (.selectIdempotencyForUpdate p key), (some t, s) => watched →
    present (s.rows.apply t.writes) (.idempotency p key) = true
  | _, _ => True

/-- The record that a call found stands for what the call has answered. -/
def Matches (db : Db) (input : ReportInput) (accepted : AcceptedReport) : Prop :=
  ∀ record : IdempotencyRecord, db.row (.idempotency input.projectId input.idempotencyKey) = some record →
    accepted = ⟨record.reportId, .duplicate⟩ ∧ record.requestSha256 = requestHash input.report

/-- What a call does at its commit, and why it is rolled back where its record is there. -/
def acceptance (watched : Prop) (call : Call) : Assertion engine where
  commit note t s := ∀ input, call = .submitReport input → ∃ accepted, note = input.entry accepted ∧
    Creates s.rows (s.rows.apply t.writes) accepted ∧ Matches s.rows input accepted
  rollback cause _ s := ∀ input, call = .submitReport input → IsValid input → present s.rows input.key = true →
    cause = conflictError ∨ (cause = .error "Idempotency record disappeared." ∧ ¬watched) ∨ ∃ d, cause = .database d
  free d _ _ := fun _ _ _ _ => .inr (.inr ⟨d, rfl⟩)

section Accepting

variable {Submitted : Json → Prop} {i : ClientId} {start s s' : Server} {writes tail : List Write}
  {input : ReportInput} {id e : Uuid} {record : IdempotencyRecord} {report : Report} {event : OutboxEvent}
  {accepted : AcceptedReport}

def newRows (input : ReportInput) (id e : Uuid) (record : IdempotencyRecord) (report : Report) (event : OutboxEvent) :
    List Write :=
  [set (.idempotency input.projectId input.idempotencyKey) record, set (.report id) report,
   set (.reportContent report.projectId report.runId report.payloadSha256) id, set (.outboxEvent e) event]

def ReportInput.stored (input : ReportInput) (now : Nat) : Report :=
  ⟨input.projectId, input.ingestKeyId, runIdOf input.report, requestHash input.report, payloadOf input.report, now,
    .accepted, none, none⟩

def acceptedEvent (id e : Uuid) (now : Nat) : OutboxEvent :=
  ⟨id, ⟨1, some e, some id⟩, now, now, .pending, none, none, none, 0, none⟩

/-- The transaction has made the rows of a report that was not there. -/
structure Made (i : ClientId) (input : ReportInput) (id e : Uuid) (record : IdempotencyRecord) (report : Report)
    (event : OutboxEvent) (s : Server) : Prop where
  reportId : record.reportId = id
  hash : record.requestSha256 = requestHash input.report
  aggregate : event.aggregateId = id
  owned : ∀ change ∈ newRows input id e record report event, s.owner change.key = some i
  absent : ∀ change ∈ newRows input id e record report event, s.rows.row change.key = none

theorem Made.since (h : Made i input id e record report event s) (hSince : (ingestion Submitted).Since i s s') :
    Made i input id e record report event s' where
  reportId := h.reportId
  hash := h.hash
  aggregate := h.aggregate
  owned change hMem := hSince.owned (h.owned change hMem)
  absent change hMem := (hSince.rows (h.owned change hMem)).trans (h.absent change hMem)

/-- What a call leaves that goes on to mark its key as used. -/
inductive Accepts (i : ClientId) (input : ReportInput) (s : Server) : List Write → AcceptedReport → Prop
  | created {id e : Uuid} {record : IdempotencyRecord} {report : Report} {event : OutboxEvent} {tail : List Write}
      (made : Made i input id e record report event s) (aside : ∀ change ∈ tail, IsAsideKey change.key) :
      Accepts i input s (newRows input id e record report event ++ tail) ⟨id, .accepted⟩
  | repeated {record : IdempotencyRecord} {tail : List Write} (owned : s.owner input.key = some i)
      (stored : s.rows.row (.idempotency input.projectId input.idempotencyKey) = some record)
      (hash : record.requestSha256 = requestHash input.report) (aside : ∀ change ∈ tail, IsAsideKey change.key) :
      Accepts i input s tail ⟨record.reportId, .duplicate⟩

theorem Accepts.since (h : Accepts i input s writes accepted) (hSince : (ingestion Submitted).Since i s s') :
    Accepts i input s' writes accepted := by
  cases h with
  | created made aside => exact .created (made.since hSince) aside
  | repeated owned stored hash aside => exact .repeated (hSince.owned owned) ((hSince.rows owned).trans stored) hash aside

theorem Accepts.more (h : Accepts i input s writes accepted) (hTail : ∀ change ∈ tail, IsAsideKey change.key) :
    Accepts i input s (writes ++ tail) accepted := by
  cases h with
  | created made aside =>
    rw [List.append_assoc]
    exact .created made fun change hMem => (List.mem_append.mp hMem).elim (aside change) (hTail change)
  | repeated owned stored hash aside =>
    exact .repeated owned stored hash fun change hMem => (List.mem_append.mp hMem).elim (aside change) (hTail change)

/-! ## Commits -/

theorem row_of_aside {db : Db} {k : Key} (hTail : ∀ change ∈ tail, IsAsideKey change.key) (hKey : ¬IsAsideKey k) :
    (db.apply tail).row k = db.row k :=
  Rows.apply_of_unwritten fun change hMem hSame => hKey (hSame ▸ hTail change hMem)

structure After (before after : Db) (input : ReportInput) (id e : Uuid) (record : IdempotencyRecord) (report : Report)
    (event : OutboxEvent) : Prop where
  ledger : after.row (.idempotency input.projectId input.idempotencyKey) = some record
  ledgers : ∀ {p key}, ¬(p = input.projectId ∧ key = input.idempotencyKey) →
    after.row (.idempotency p key) = before.row (.idempotency p key)
  stored : after.row (.report id) = some report
  others : ∀ {id'}, id' ≠ id → after.row (.report id') = before.row (.report id')
  index : after.row (.reportContent report.projectId report.runId report.payloadSha256) = some id
  indexes : ∀ {p runId hash}, report.content ≠ (p, runId, hash) →
    after.row (.reportContent p runId hash) = before.row (.reportContent p runId hash)
  queued : after.row (.outboxEvent e) = some event
  queue : ∀ {e'}, e' ≠ e → after.row (.outboxEvent e') = before.row (.outboxEvent e')
  project : ∀ p, after.row (.project p) = before.row (.project p)
  organization : ∀ o, after.row (.organization o) = before.row (.organization o)

theorem after_newRows {db : Db} (hTail : ∀ change ∈ tail, IsAsideKey change.key) :
    After db (db.apply (newRows input id e record report event ++ tail)) input id e record report event := by
  have hRow : ∀ {k}, ¬IsAsideKey k → (db.apply (newRows input id e record report event ++ tail)).row k =
      (db.apply (newRows input id e record report event)).row k := fun hKey => by
    rw [Rows.apply_append]
    exact row_of_aside hTail hKey
  constructor
  · rw [hRow not_aside_ledger]
    simp [newRows]
  · intro p key hne
    rw [hRow not_aside_ledger]
    simp [newRows, hne]
  · rw [hRow not_aside_report]
    simp [newRows]
  · intro id' hne
    rw [hRow not_aside_report]
    simp [newRows, hne]
  · rw [hRow not_aside_content]
    simp [newRows]
  · intro p runId hash hne
    have hKey : ¬(p = report.projectId ∧ runId = report.runId ∧ hash = report.payloadSha256) := by
      rintro ⟨rfl, rfl, rfl⟩
      exact hne rfl
    rw [hRow not_aside_content]
    simp [newRows, hKey]
  · rw [hRow not_aside_event]
    simp [newRows]
  · intro e' hne
    rw [hRow not_aside_event]
    simp [newRows, hne]
  · intro p
    rw [hRow not_aside_project]
    simp [newRows]
  · intro o
    rw [hRow not_aside_organization]
    simp [newRows]

theorem Recorded.append {db db' : Db} {journal : List JournalEntry} {p : Uuid} {key : String} {entry : JournalEntry}
    (h : Recorded db journal p key record) (hEntry : Repeats p key record entry)
    (hEvents : ∀ e, EventOf db e record.reportId → EventOf db' e record.reportId) :
    Recorded db' (journal ++ [entry]) p key record := by
  obtain ⟨before, report, after, rfl, hHash, hAfter, hEvent⟩ := h
  refine ⟨before, report, after ++ [entry], by simp, hHash, ?_, fun hNone => ?_⟩
  · intro other hMem
    rcases List.mem_append.mp hMem with hMem | hMem
    · exact hAfter other hMem
    · cases List.mem_singleton.mp hMem
      exact hEntry
  · obtain ⟨e, hEvent⟩ := hEvent fun hMem => hNone (List.mem_append_left _ hMem)
    exact ⟨e, hEvents e hEvent⟩

section Created

variable {after : Db} (h : Ingested Submitted s.toCommitted) (hMade : Made i input id e record report event s)
  (hAfter : After s.rows after input id e record report event)

include hMade

theorem Made.fresh : s.rows.row (.idempotency input.projectId input.idempotencyKey) = none ∧ s.rows.row (.report id) = none ∧
    s.rows.row (.reportContent report.projectId report.runId report.payloadSha256) = none ∧
    s.rows.row (.outboxEvent e) = none := by
  have hAbsent := hMade.absent
  simp only [newRows, List.forall_mem_cons] at hAbsent
  exact ⟨hAbsent.1, hAbsent.2.1, hAbsent.2.2.1, hAbsent.2.2.2.1⟩

include hAfter

theorem eventOf_created {e' r : Uuid} : EventOf after e' r ↔ e' = e ∧ r = id ∨ e' ≠ e ∧ EventOf s.rows e' r := by
  by_cases hSame : e' = e
  · subst hSame
    rw [EventOf, hAfter.queued]
    simp [hMade.aggregate, eq_comm]
  · rw [EventOf, EventOf, hAfter.queue hSame]
    simp [hSame]

theorem present_created {r : Uuid} (hStored : present s.rows (.report r) = true) : present after (.report r) = true := by
  by_cases hSame : r = id
  · subst hSame
    exact present_iff.mpr ⟨report, hAfter.stored⟩
  · rw [present, hAfter.others hSame]
    exact hStored

include h

theorem indexed_created {projectId id' : Uuid} {runId hash : String} :
    after.row (.reportContent projectId runId hash) = some id' ↔ HasContent after id' projectId runId hash := by
  obtain ⟨_, hReport, hIndex, _⟩ := hMade.fresh
  by_cases hContent : report.content = (projectId, runId, hash)
  · cases hContent
    rw [hAfter.index]
    constructor
    · rintro ⟨⟩
      exact ⟨report, hAfter.stored, rfl⟩
    · rintro ⟨other, hRow, hOther⟩
      by_cases hSame : id' = id
      · rw [hSame]
      · cases hIndex.symm.trans (h.indexed.mpr ⟨other, (hAfter.others hSame).symm.trans hRow, hOther⟩)
  · rw [hAfter.indexes hContent, h.indexed]
    constructor
    · rintro ⟨other, hRow, hOther⟩
      have hNe : id' ≠ id := by
        rintro rfl
        cases hReport.symm.trans hRow
      exact ⟨other, (hAfter.others hNe).trans hRow, hOther⟩
    · rintro ⟨other, hRow, hOther⟩
      have hNe : id' ≠ id := by
        rintro rfl
        cases hAfter.stored.symm.trans hRow
        exact hContent hOther
      exact ⟨other, (hAfter.others hNe).symm.trans hRow, hOther⟩

theorem unique_created {e₁ e₂ r : Uuid} (h₁ : EventOf after e₁ r) (h₂ : EventOf after e₂ r) : e₁ = e₂ := by
  obtain ⟨_, hReport, _, _⟩ := hMade.fresh
  have hOther : ∀ {e'}, EventOf s.rows e' id → False := by
    intro e' hEvent
    have hStored := h.aggregates hEvent
    rw [present, hReport] at hStored
    cases hStored
  rcases (eventOf_created hMade hAfter).mp h₁ with ⟨rfl, rfl⟩ | ⟨_, hBefore₁⟩
  · rcases (eventOf_created hMade hAfter).mp h₂ with ⟨rfl, _⟩ | ⟨_, hBefore₂⟩
    · rfl
    · exact (hOther hBefore₂).elim
  · rcases (eventOf_created hMade hAfter).mp h₂ with ⟨rfl, rfl⟩ | ⟨_, hBefore₂⟩
    · exact (hOther hBefore₁).elim
    · exact h.unique hBefore₁ hBefore₂

theorem ingested_created {world : World} {clock : Nat} (hSubmitted : Submitted input.report)
    (hJournal : world.journal = s.world.journal ++ [.report input.projectId input.idempotencyKey input.report id .accepted]) :
    Ingested Submitted ⟨after, world, clock⟩ where
  indexed := indexed_created h hMade hAfter
  referred := by
    intro p key other hRow
    by_cases hKey : p = input.projectId ∧ key = input.idempotencyKey
    · obtain ⟨rfl, rfl⟩ := hKey
      cases hAfter.ledger.symm.trans hRow
      rw [hMade.reportId]
      exact present_iff.mpr ⟨report, hAfter.stored⟩
    · exact present_created hMade hAfter (h.referred ((hAfter.ledgers hKey).symm.trans hRow))
  aggregates := by
    intro e' r hEvent
    rcases (eventOf_created hMade hAfter).mp hEvent with ⟨_, rfl⟩ | ⟨_, hBefore⟩
    · exact present_iff.mpr ⟨report, hAfter.stored⟩
    · exact present_created hMade hAfter (h.aggregates hBefore)
  unique h₁ h₂ := unique_created h hMade hAfter h₁ h₂
  recorded := by
    intro p key other hRow
    rw [hJournal]
    by_cases hKey : p = input.projectId ∧ key = input.idempotencyKey
    · obtain ⟨rfl, rfl⟩ := hKey
      cases hAfter.ledger.symm.trans hRow
      refine ⟨s.world.journal, input.report, [], by rw [hMade.reportId], hMade.hash.symm, fun _ hMem => (nomatch hMem), fun _ => ?_⟩
      rw [hMade.reportId]
      exact ⟨e, (eventOf_created hMade hAfter).mpr (.inl ⟨rfl, rfl⟩)⟩
    · refine (h.recorded ((hAfter.ledgers hKey).symm.trans hRow)).append ?_ fun e' hEvent => ?_
      · rintro rfl rfl
        exact absurd ⟨rfl, rfl⟩ hKey
      · obtain ⟨_, _, _, hEventRow⟩ := hMade.fresh
        refine (eventOf_created hMade hAfter).mpr (.inr ⟨?_, hEvent⟩)
        rintro rfl
        obtain ⟨_, hStored, _⟩ := hEvent
        cases hEventRow.symm.trans hStored
  submitted := by
    intro p key other r status hMem
    rw [hJournal] at hMem
    rcases List.mem_append.mp hMem with hMem | hMem
    · exact h.submitted hMem
    · cases List.mem_singleton.mp hMem
      exact hSubmitted
  housed := by
    intro p project hRow
    rw [present, hAfter.organization]
    exact h.housed ((hAfter.project p).symm.trans hRow)

end Created

theorem ingested_repeated {after : Db} {world : World} {clock : Nat} (h : Ingested Submitted s.toCommitted)
    (hSame : ∀ k, sameIngestion k (s.rows.row k) (after.row k))
    (hStored : s.rows.row (.idempotency input.projectId input.idempotencyKey) = some record)
    (hHash : record.requestSha256 = requestHash input.report) (hSubmitted : Submitted input.report)
    (hJournal : world.journal =
      s.world.journal ++ [.report input.projectId input.idempotencyKey input.report record.reportId .duplicate]) :
    Ingested Submitted ⟨after, world, clock⟩ := by
  have hAfter : Ingested Submitted ⟨after, s.world, clock⟩ := ingested_of_same h hSame rfl
  refine ⟨hAfter.indexed, hAfter.referred, hAfter.aggregates, hAfter.unique, ?_, ?_, hAfter.housed⟩
  · intro p key other hRow
    rw [hJournal]
    refine (hAfter.recorded hRow).append ?_ fun _ => id
    rintro rfl rfl
    have hLedger : after.row (.idempotency input.projectId input.idempotencyKey) =
      s.rows.row (.idempotency input.projectId input.idempotencyKey) := hSame (.idempotency _ _)
    cases (hLedger.trans hStored).symm.trans hRow
    exact ⟨rfl, rfl, hHash.symm⟩
  · intro p key other r status hMem
    rw [hJournal] at hMem
    rcases List.mem_append.mp hMem with hMem | hMem
    · exact h.submitted hMem
    · cases List.mem_singleton.mp hMem
      exact hSubmitted

theorem creates_created {after : Db} (hMade : Made i input id e record report event s)
    (hAfter : After s.rows after input id e record report event) : Creates s.rows after ⟨id, .accepted⟩ := by
  obtain ⟨_, hReport, _, hEvent⟩ := hMade.fresh
  refine ⟨fun id' => ?_, e, ⟨event, hAfter.queued, hMade.aggregate⟩, fun e' => ?_⟩
  · constructor
    · rintro ⟨hBefore, hNew⟩
      by_contra hne
      rw [present, hAfter.others hne] at hNew
      exact Bool.false_ne_true (hBefore.symm.trans hNew)
    · rintro rfl
      exact ⟨absent_iff.mpr hReport, present_iff.mpr ⟨report, hAfter.stored⟩⟩
  · constructor
    · rintro ⟨hBefore, hNew⟩
      by_contra hne
      rw [present, hAfter.queue hne] at hNew
      exact Bool.false_ne_true (hBefore.symm.trans hNew)
    · rintro rfl
      exact ⟨absent_iff.mpr hEvent, present_iff.mpr ⟨event, hAfter.queued⟩⟩

theorem creates_nothing {db : Db} {r : Uuid} (hTail : ∀ change ∈ tail, IsAsideKey change.key) :
    Creates db (db.apply tail) ⟨r, .duplicate⟩ := by
  refine fun id' => ⟨?_, ?_⟩
  · rintro ⟨hBefore, hNew⟩
    rw [present, row_of_aside hTail not_aside_report] at hNew
    exact Bool.false_ne_true (hBefore.symm.trans hNew)
  · rintro ⟨hBefore, hNew⟩
    rw [present, row_of_aside hTail not_aside_event] at hNew
    exact Bool.false_ne_true (hBefore.symm.trans hNew)

theorem same_of_aside {db : Db} (hTail : ∀ change ∈ tail, IsAsideKey change.key) (k : Key) :
    sameIngestion k (db.row k) ((db.apply tail).row k) := by
  rcases db.apply_cases tail k with hSame | ⟨v, hMem, _⟩
  · exact hSame ▸ sameIngestion_refl k _
  · exact hTail _ hMem _ _

variable {watched : Prop} (hSubmitted : Submitted input.report)

include hSubmitted

theorem closes_accepts (h : Accepts i input s writes accepted) :
    (ingestion Submitted).Closes i (findsRecord watched i) (acceptance watched (.submitReport input)) start
      (input.entry accepted) (fun _ => True) writes s := by
  intro s₁ hSince _
  have hInv : Ingested Submitted s₁.toCommitted := hSince.inv
  cases h.since hSince with
  | @created id e record report event tail made aside =>
    have hAfter : After s₁.rows (s₁.rows.apply (newRows input id e record report event ++ tail)) input id e record
      report event := after_newRows aside
    refine ⟨?_, fun _ => ⟨⟨ingested_created hInv made hAfter hSubmitted rfl, ?_⟩, trivial⟩⟩
    · rintro _ ⟨⟩
      refine ⟨_, rfl, creates_created made hAfter, fun other hRow => ?_⟩
      cases made.fresh.1.symm.trans hRow
    · intro j owned _ hFree e' r hOwned hEvent
      rcases (eventOf_created made hAfter).mp hEvent with ⟨_, rfl⟩ | ⟨_, hBefore⟩
      · exact absurd (made.owned (set (.report r) report) (by simp [newRows])) (hFree _ hOwned)
      · exact hBefore
  | repeated owned stored hash aside =>
    have hSame : ∀ k, sameIngestion k (s₁.rows.row k) ((s₁.rows.apply writes).row k) := same_of_aside aside
    refine ⟨?_, fun _ => ⟨⟨ingested_repeated hInv hSame stored hash hSubmitted rfl, ?_⟩, trivial⟩⟩
    · rintro _ ⟨⟩
      refine ⟨_, rfl, creates_nothing aside, fun other hRow => ?_⟩
      cases stored.symm.trans hRow
      exact ⟨rfl, hash⟩
    · exact fun _ _ _ _ _ _ _ hEvent => (eventOf_of_same hSame).mp hEvent

omit hSubmitted

/-! ## The statements of a call -/

theorem rollback_absent {cause : Failure} {t : Option (Transaction Row)} (hOwner : s.owner input.key = some i)
    (hAbsent : s.rows.row (.idempotency input.projectId input.idempotencyKey) = none)
    (hSince : (ingestion Submitted).Since i s s') : (acceptance watched (.submitReport input)).rollback cause t s' := by
  rintro _ ⟨⟩ _ hPresent
  have hRow : s'.rows.row (.idempotency input.projectId input.idempotencyKey) = none :=
    (hSince.rows hOwner).trans hAbsent
  rw [ReportInput.key, present, hRow] at hPresent
  cases hPresent

theorem hash_of_equal {left right : String} (h : constantTimeHexEqual left right = true) : left = right := by
  simp only [constantTimeHexEqual, Bool.and_eq_true, beq_iff_eq] at h
  exact h.2

theorem acceptDuplicate_within :
    (ingestion Submitted).Within i (findsRecord watched i) (acceptance watched (.submitReport input)) start
      (fun accepted writes' s' => Accepts i input s' writes' accepted)
      (acceptDuplicate input (requestHash input.report)) [] s := by
  unfold acceptDuplicate
  refine .query fun s₁ existing outcome hSince hGuard hRun _ hReply => ?_
  obtain ⟨record, hRow, _, rfl⟩ | ⟨hNone, rfl⟩ := selectForUpdate_spec hRun
  · cases hReply
    refine .throwIf (fun _ s' _ => ?_) fun hEqual => .pure ?_
    · exact fun _ _ _ _ => .inl rfl
    · refine .repeated (owner_lock_of_mem List.mem_cons_self) hRow (hash_of_equal (by simpa using hEqual)) ?_
      exact fun _ hMem => nomatch hMem
  · cases hReply
    refine .throw fun s' _ => ?_
    refine fun _ _ _ _ => .inr (.inl ⟨rfl, fun hWatched => ?_⟩)
    obtain ⟨record, hRow⟩ := present_iff.mp (hGuard hWatched)
    cases hNone record hRow

theorem acceptNew_within {record : IdempotencyRecord} (hOwner : s.owner input.key = some i)
    (hAbsent : s.rows.row (.idempotency input.projectId input.idempotencyKey) = none) (hId : record.reportId = id)
    (hHash : record.requestSha256 = requestHash input.report) :
    (ingestion Submitted).Within i (findsRecord watched i) (acceptance watched (.submitReport input)) start
      (fun accepted writes' s' => Accepts i input s' writes' accepted)
      (acceptNew input (requestHash input.report) id) [set (.idempotency input.projectId input.idempotencyKey) record] s := by
  unfold acceptNew organizationIdForProject
  refine .look _ (fun _ _ => rfl) fun s₁ hSince₁ => ?_
  split
  · exact .throw fun s' hSince => rollback_absent hOwner hAbsent (hSince₁.trans hSince)
  · rename_i organizationId _
    refine (enforceQuota_within fun _ s' hSince => rollback_absent hOwner hAbsent (hSince₁.trans hSince)).bind
      fun _ writes₂ s₂ hQuotas => ?_
    obtain ⟨rfl, s', quota, hQuota, hSince₂⟩ := hQuotas
    have hSince₂ := hSince₁.trans (hQuota.since.trans hSince₂)
    refine .query fun s₃ _ outcome hSince₃ _ hRun₃ _ hReply₃ => ?_
    obtain ⟨_, rfl, hReport, hIndex⟩ := insertReport_spec hRun₃ hReply₃
    have hSince₃ := hSince₂.trans hSince₃
    refine within_randomUUID fun e s₄ hSince₄ => ?_
    refine .query fun s₅ _ outcome hSince₅ _ hRun₅ _ hReply₅ => .pure ?_
    obtain ⟨rfl, hEvent⟩ := insertOutboxEvent_spec hRun₅ hReply₅
    have hSince₃₅ := hSince₄.trans hSince₅
    have hSince₅ := hSince₃.trans hSince₃₅.after_lock
    have hReport₃ : s₃.rows.row (.report id) = none := by simpa using hReport
    have hIndex₃ : s₃.rows.row (.reportContent input.projectId (runIdOf input.report) (requestHash input.report)) = none := by
      simpa using hIndex
    have hOwnerReport : s₅.owner (.report id) = some i := hSince₃₅.owned (owner_lock_of_mem List.mem_cons_self)
    have hOwnerIndex : s₅.owner (.reportContent input.projectId (runIdOf input.report) (requestHash input.report)) = some i :=
      hSince₃₅.owned (owner_lock_of_mem (.tail _ List.mem_cons_self))
    have hReport₅ : s₅.rows.row (.report id) = s₃.rows.row (.report id) :=
      hSince₃₅.rows (owner_lock_of_mem List.mem_cons_self)
    have hIndex₅ : s₅.rows.row (.reportContent input.projectId (runIdOf input.report) (requestHash input.report)) =
        s₃.rows.row (.reportContent input.projectId (runIdOf input.report) (requestHash input.report)) :=
      hSince₃₅.rows (owner_lock_of_mem (.tail _ List.mem_cons_self))
    have hEvent₅ : s₅.rows.row (.outboxEvent e) = none := by simpa [write] using hEvent
    have hLock := Since.lock (i := i) hSince₅.inv [Key.outboxEvent e]
    have hMade : Made i input id e record (input.stored start.clock) (acceptedEvent id e start.clock)
        (s₅.lock i [.outboxEvent e]) := by
      refine ⟨hId, hHash, rfl, ?_, ?_⟩
      · simp only [newRows, List.forall_mem_cons]
        refine ⟨hLock.owned (hSince₅.owned hOwner), hLock.owned hOwnerReport, hLock.owned hOwnerIndex,
          owner_lock_of_mem List.mem_cons_self, by simp⟩
      · simp only [newRows, List.forall_mem_cons]
        exact ⟨(hSince₅.rows hOwner).trans hAbsent, hReport₅.trans hReport₃, hIndex₅.trans hIndex₃, hEvent₅,
          by simp⟩
    show Accepts i input _ (newRows input id e record (input.stored start.clock) (acceptedEvent id e start.clock) ++ []) _
    exact .created hMade (by simp)

theorem acceptReport_within :
    (ingestion Submitted).Within i (findsRecord watched i) (acceptance watched (.submitReport input)) start
      (fun accepted writes' s' => Accepts i input s' writes' accepted) (acceptReport input) [] s := by
  unfold acceptReport
  refine .lift (fun e hInvalid s' _ => ?_) fun _ _ => .lift (fun e hInvalid s' _ => ?_) fun _ _ => ?_
  · rintro _ ⟨⟩ hValid
    cases hInvalid.symm.trans hValid.1
  · rintro _ ⟨⟩ hValid
    cases hInvalid.symm.trans hValid.2
  · refine within_randomUUID fun id s₁ _ => .query fun s₂ inserted outcome hSince₂ _ hRun₂ _ hReply₂ => ?_
    obtain ⟨rfl, _, rfl⟩ | ⟨rfl, hAbsent, _, rfl⟩ := insertOrNothing_spec hRun₂ hReply₂
    · exact acceptDuplicate_within
    · exact acceptNew_within (owner_lock_of_mem List.mem_cons_self) hAbsent rfl rfl

theorem submit_within (hSubmitted : Submitted input.report) :
    (ingestion Submitted).Within i (findsRecord watched i) (acceptance watched (.submitReport input)) start
      (fun accepted => (ingestion Submitted).Closes i (findsRecord watched i) (acceptance watched (.submitReport input))
        start (input.entry accepted) fun _ => True)
      (do let result ← acceptReport input
          markIngestKeyUsed input.projectId input.ingestKeyId
          return result) [] start := by
  refine acceptReport_within.bind fun accepted writes s₁ hAccepts => ?_
  unfold markIngestKeyUsed
  refine Within.bind (.query fun s₂ _ outcome hSince _ hRun _ _ => .pure ?_) fun _ writes₂ s₂ hDone => .pure hDone
  have hAside : ∀ change ∈ outcome.writes, IsAsideKey change.key := by
    obtain ⟨ingestKey, _, _, rfl⟩ | ⟨_, rfl⟩ := update_spec hRun
    · rintro change hMem
      cases List.mem_singleton.mp hMem
      exact fun _ _ => trivial
    · exact fun _ hMem => nomatch hMem
  exact (closes_accepts hSubmitted ((hAccepts.since hSince).more hAside)).since (.lock hSince.inv _)

theorem submission_secure (hSubmitted : Submitted input.report) :
    (ingestion Submitted).Secure i (findsRecord watched i) (acceptance watched (.submitReport input)) (fun _ _ _ => True)
      (Call.submitReport input).program none s := by
  refine .bind (Secure.mono (Q := fun _ _ _ => True) (secure_transaction (fun s₁ _ => ?_) fun _ _ _ => trivial)
    fun result t s _ => ?_)
  · refine (submit_within hSubmitted).mono fun accepted writes s₂ hCloses s₃ hSince hGuard => ?_
    obtain ⟨hAt, hStep⟩ := hCloses s₃ hSince hGuard
    exact ⟨hAt, fun hDeferred => ⟨(hStep hDeferred).1, trivial, fun _ _ _ => trivial⟩⟩
  · cases result with
    | ok a => trivial
    | error problem => trivial

end Accepting

end GhostApi.Hosted
