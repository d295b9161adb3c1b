import GhostApi.Hosted.Calls
import GhostApi.Lib.Sql.Discipline
import GhostApi.Lib.Sql.Runs

/-!
# The ledger of accepted reports

A record of the idempotency ledger stands for the report that the first call
with its key has stored, and every later call answers that report. Dispatchers
and deliveries leave the contents of reports and the reports of events alone;
a cleanup takes a report away with its index entry and its event, and only when
no record refers to it.
-/

namespace GhostApi.Hosted

open Js Sql Sql.Protocol Effect Transition

def Report.content (report : Report) : Uuid × String × String := (report.projectId, report.runId, report.payloadSha256)

def HasContent (db : Db) (id projectId : Uuid) (runId payloadSha256 : String) : Prop :=
  ∃ report : Report, db.row (.report id) = some report ∧ report.content = (projectId, runId, payloadSha256)

/-- The entry of a call that came after the one that made the record. -/
def Repeats (projectId : Uuid) (key : String) (record : IdempotencyRecord) : JournalEntry → Prop
  | .report p k report reportId status => p = projectId → k = key →
    reportId = record.reportId ∧ status = .duplicate ∧ requestHash report = record.requestSha256
  | .cleanup => True

/-- What the committed calls have done since a record was made. -/
def Recorded (db : Db) (journal : List JournalEntry) (projectId : Uuid) (key : String)
    (record : IdempotencyRecord) : Prop :=
  ∃ before report after, journal = before ++ .report projectId key report record.reportId .accepted :: after ∧
    requestHash report = record.requestSha256 ∧ (∀ entry ∈ after, Repeats projectId key record entry) ∧
    (.cleanup ∉ after → ∃ e, EventOf db e record.reportId)

structure Ingested (Submitted : Json → Prop) (c : Committed Row World) : Prop where
  indexed : ∀ {projectId runId hash id}, c.rows.row (.reportContent projectId runId hash) = some id ↔
    HasContent c.rows id projectId runId hash
  referred : ∀ {projectId key} {record : IdempotencyRecord}, c.rows.row (.idempotency projectId key) = some record →
    present c.rows (.report record.reportId) = true
  aggregates : ∀ {e r}, EventOf c.rows e r → present c.rows (.report r) = true
  unique : ∀ {e e' r}, EventOf c.rows e r → EventOf c.rows e' r → e = e'
  recorded : ∀ {projectId key} {record : IdempotencyRecord}, c.rows.row (.idempotency projectId key) = some record →
    Recorded c.rows c.world.journal projectId key record
  submitted : ∀ {projectId key report reportId status}, .report projectId key report reportId status ∈ c.world.journal →
    Submitted report
  housed : ∀ {projectId} {project : Project}, c.rows.row (.project projectId) = some project →
    present c.rows (.organization project.organizationId) = true

section States

variable {Submitted : Json → Prop} {c c' c₁ c₂ c₃ : Committed Row World} {projectId id e r : Uuid}
  {key runId hash : String} {record : IdempotencyRecord} {journal : List JournalEntry} {db db' : Db}

/-! ## Statements that leave ingestion alone -/

def sameIngestion : (k : Key) → Option (Row k) → Option (Row k) → Prop
  | .report _, old, new => Option.map Report.content new = Option.map Report.content old
  | .outboxEvent _, old, new => Option.map OutboxEvent.aggregateId new = Option.map OutboxEvent.aggregateId old
  | .reportContent _ _ _, old, new => new = old
  | .idempotency _ _, old, new => new = old
  | .project _, old, new => new = old
  | .organization _, old, new => new = old
  | _, _, _ => True

theorem sameIngestion_refl (k : Key) (v : Option (Row k)) : sameIngestion k v v := by
  cases k <;> first | rfl | trivial

theorem sameIngestion_trans (k : Key) (v₁ v₂ v₃ : Option (Row k)) (h : sameIngestion k v₁ v₂)
    (h' : sameIngestion k v₂ v₃) : sameIngestion k v₁ v₃ := by
  cases k <;> first | exact h'.trans h | trivial

theorem hasContent_of_same (h : ∀ k, sameIngestion k (db.row k) (db'.row k)) :
    HasContent db' id projectId runId hash ↔ HasContent db id projectId runId hash := by
  have hSame : Option.map Report.content (db'.row (.report id)) = Option.map Report.content (db.row (.report id)) :=
    h (.report id)
  have hView : ∀ db : Db, HasContent db id projectId runId hash ↔
      Option.map Report.content (db.row (.report id)) = some (projectId, runId, hash) :=
    fun db => Option.map_eq_some_iff.symm
  rw [hView, hView, hSame]

theorem eventOf_of_same (h : ∀ k, sameIngestion k (db.row k) (db'.row k)) : EventOf db' e r ↔ EventOf db e r := by
  have hSame : Option.map OutboxEvent.aggregateId (db'.row (.outboxEvent e)) =
      Option.map OutboxEvent.aggregateId (db.row (.outboxEvent e)) := h (.outboxEvent e)
  have hView : ∀ db : Db, EventOf db e r ↔ Option.map OutboxEvent.aggregateId (db.row (.outboxEvent e)) = some r :=
    fun db => Option.map_eq_some_iff.symm
  rw [hView, hView, hSame]

theorem present_of_same (h : ∀ k, sameIngestion k (db.row k) (db'.row k)) :
    present db' (.report r) = present db (.report r) := by
  have hSame : Option.map Report.content (db'.row (.report r)) = Option.map Report.content (db.row (.report r)) :=
    h (.report r)
  simpa [present] using congrArg Option.isSome hSame

theorem ingested_of_same {world : World} {clock : Nat} (h : Ingested Submitted c)
    (hSame : ∀ k, sameIngestion k (c.rows.row k) (db'.row k)) (hJournal : world.journal = c.world.journal) :
    Ingested Submitted ⟨db', world, clock⟩ where
  indexed := by
    intro projectId runId hash id
    have hIndex : db'.row (.reportContent projectId runId hash) = c.rows.row (.reportContent projectId runId hash) :=
      hSame (.reportContent projectId runId hash)
    rw [hasContent_of_same hSame, hIndex]
    exact h.indexed
  referred := by
    intro projectId key record hRow
    have hRecord : db'.row (.idempotency projectId key) = c.rows.row (.idempotency projectId key) :=
      hSame (.idempotency projectId key)
    rw [present_of_same hSame]
    exact h.referred (hRecord.symm.trans hRow)
  aggregates hEvent := by
    rw [present_of_same hSame]
    exact h.aggregates ((eventOf_of_same hSame).mp hEvent)
  unique h₁ h₂ := h.unique ((eventOf_of_same hSame).mp h₁) ((eventOf_of_same hSame).mp h₂)
  recorded := by
    intro projectId key record hRow
    have hRecord : db'.row (.idempotency projectId key) = c.rows.row (.idempotency projectId key) :=
      hSame (.idempotency projectId key)
    obtain ⟨before, report, after, hSplit, hHash, hAfter, hEvent⟩ := h.recorded (hRecord.symm.trans hRow)
    refine ⟨before, report, after, hJournal.trans hSplit, hHash, hAfter, fun hNone => ?_⟩
    obtain ⟨e, hEvent⟩ := hEvent hNone
    exact ⟨e, (eventOf_of_same hSame).mpr hEvent⟩
  submitted hMem := h.submitted (hJournal ▸ hMem)
  housed := by
    intro projectId project hRow
    have hProject : db'.row (.project projectId) = c.rows.row (.project projectId) := hSame (.project projectId)
    have hOrganization : db'.row (.organization project.organizationId) = c.rows.row (.organization project.organizationId) :=
      hSame (.organization project.organizationId)
    rw [present, hOrganization]
    exact h.housed (hProject.symm.trans hRow)

end States

/-! ## The protocol -/

def ingestion (Submitted : Json → Prop) : Protocol engine where
  Inv := Ingested Submitted
  rely _ owned c c' := ∀ e r, owned (.report r) → EventOf c'.rows e r → EventOf c.rows e r
  refl _ _ _ _ _ _ h := h
  trans h h' e r hOwned hEvent := h e r hOwned (h' e r hOwned hEvent)
  anti hMore h e r hOwned hEvent := h e r (hMore _ hOwned) hEvent
  tick _ h := ⟨ingested_of_same h (fun k => sameIngestion_refl k _) rfl, fun _ _ _ _ _ hEvent => hEvent⟩
  outside {c x world} h hDrift := by
    cases x with
    | settle eventId attempt success =>
      cases hDrift
      exact ⟨ingested_of_same h (fun k => sameIngestion_refl k _) rfl, fun _ _ _ _ _ hEvent => hEvent⟩
    | _ => cases hDrift
  halt _ h := ⟨ingested_of_same h (fun k => sameIngestion_refl k _) rfl, fun _ _ _ _ _ _ hEvent => hEvent⟩

section Programs

variable {Submitted : Json → Prop} {i : ClientId} {s s' : Server} {writes : List Write}

/-! ### Dispatchers and deliveries -/

def isAside : Query → Bool
  | .selectExhaustedEvents _ | .deadLetterEvent _ _ | .failAcceptedReport _ | .leaseEvents _ _
  | .updateEventDispatched _ | .updateEventFailed _ _ _ | .selectEventReportForUpdate _ | .upsertReceipt _ _
  | .selectReceiptForUpdate _ | .selectAttempts _ | .updateReceiptExhausted _ | .updateReportExhausted _
  | .updateReportProcessing _ | .selectProcessingReportForUpdate _ | .selectLatestScenarios _
  | .upsertScenarioResult _ _ _ _ | .updateReportCompleted _ | .updateReceiptCompleted _ | .updateReportFailed _ _ _
  | .updateReceiptFailed _ _ _ => true
  | _ => false

def isQuiet : Note → Prop
  | .entry _ => False
  | _ => True

def Aside : Op Query External Note Failure → Prop
  | .query q => isAside q = true
  | .commit note => isQuiet note
  | _ => True

theorem step_of_same {note : Note} (h : Ingested Submitted s.toCommitted) (hNote : isQuiet note)
    (hSame : ∀ k, sameIngestion k (s.rows.row k) ((s.rows.apply writes).row k)) :
    (ingestion Submitted).Step i s (s.commit engine i writes note) := by
  have hJournal : (record note i s.world).journal = s.world.journal := by
    cases note <;> first | rfl | cases hNote
  exact ⟨ingested_of_same h hSame hJournal, fun _ _ _ _ _ _ _ hEvent => (eventOf_of_same hSame).mp hEvent⟩

theorem answer_journal {x : External} {choice : Chance} {world world' : World} {reply : Except Failure (Answer x)}
    (h : answer x i choice world = some (reply, world')) : world'.journal = world.journal := by
  cases x <;> cases choice <;> simp only [answer] at h <;> first
    | cases h; rfl
    | (split at h <;> cases h; rfl)
    | cases h

theorem leaves_set {db : Db} {k : Key} {v : Row k} (h : sameIngestion k (db.row k) (some v)) (k' : Key) :
    sameIngestion k' (db.row k') ((db.apply [set k v]).row k') := by
  by_cases hKey : k' = k
  · subst hKey
    simpa using h
  · have hRow : (db.apply [set k v]).row k' = db.row k' := by simp [hKey]
    rw [hRow]
    exact sameIngestion_refl k' _

theorem leaves_update {db : Db} {k : Key} {qualifies : Row k → Bool} {change : Row k → Row k}
    (hChange : ∀ v, sameIngestion k (some v) (some (change v))) (k' : Key) :
    sameIngestion k' (db.row k') ((db.apply (update db k qualifies fun v => [set k (change v)]).writes).row k') := by
  obtain ⟨v, hRow, _, hRun⟩ | ⟨_, hRun⟩ := update_spec (rfl : update db k qualifies (fun v => [set k (change v)]) = _)
  · rw [hRun]
    exact leaves_set (hRow ▸ hChange v) k'
  · rw [hRun]
    exact sameIngestion_refl k' _

theorem leaves_selectForUpdate {α : Type} {db : Db} {k : Key} {qualifies : Row k → Bool} {found : Row k → α} (k' : Key) :
    sameIngestion k' (db.row k') ((db.apply (selectForUpdate db k qualifies found).writes).row k') := by
  obtain ⟨v, _, _, hRun⟩ | ⟨_, hRun⟩ := selectForUpdate_spec (rfl : selectForUpdate db k qualifies found = _)
  · rw [hRun]
    exact sameIngestion_refl k' _
  · rw [hRun]
    exact sameIngestion_refl k' _

theorem leaves_leaseEvents {db : Db} {now limit maxAttempts : Nat} {busy : Key → Bool} (k : Key) :
    sameIngestion k (db.row k) ((db.apply (leaseEvents db now busy limit maxAttempts).writes).row k) := by
  obtain ⟨picked, _, hPicked, hRun⟩ := leaseEvents_spec (rfl : leaseEvents db now busy limit maxAttempts = _)
  rw [hRun]
  change sameIngestion k (db.row k)
    ((db.apply (picked.map fun pick => set (.outboxEvent pick.1) (pick.2.leased now))).row k)
  rcases db.apply_cases (picked.map fun pick => set (.outboxEvent pick.1) (pick.2.leased now)) k with hSame | ⟨v, hMem, hView⟩
  · exact hSame ▸ sameIngestion_refl k _
  · obtain ⟨⟨id, event⟩, hPick, hWrite⟩ := List.mem_map.mp hMem
    cases hWrite
    rw [hView, (hPicked id event hPick).1]
    rfl

theorem leaves_upsertReceipt {db : Db} {now maxAttempts : Nat} {e : Uuid} (k : Key) :
    sameIngestion k (db.row k) ((db.apply (upsertReceipt db now maxAttempts e).writes).row k) := by
  unfold upsertReceipt
  split
  · split
    · exact leaves_set (k := .jobReceipt e) trivial k
    · exact sameIngestion_refl k _
  · split
    · exact leaves_set (k := .jobReceipt e) trivial k
    · exact sameIngestion_refl k _

theorem leaves_upsertScenarioResult {db : Db} {now : Nat} {r v : Uuid} {status : ResultStatus} {result : Json} (k : Key) :
    sameIngestion k (db.row k) ((db.apply (upsertScenarioResult db now r v status result).writes).row k) := by
  unfold upsertScenarioResult
  split
  · split
    · exact sameIngestion_refl k _
    · exact leaves_set (k := .scenarioResult r v) trivial k
  · exact sameIngestion_refl k _

theorem leaves_of_isAside {q : Query} (h : isAside q = true) (now : Nat) (busy : Key → Bool) (db : Db) (k : Key) :
    sameIngestion k (db.row k) ((db.apply (execute q now busy db).writes).row k) := by
  cases q with
  | leaseEvents limit maxAttempts => exact leaves_leaseEvents k
  | upsertReceipt maxAttempts e => exact leaves_upsertReceipt k
  | upsertScenarioResult r v status result => exact leaves_upsertScenarioResult k
  | selectExhaustedEvents _ | selectAttempts _ | selectLatestScenarios _ => exact sameIngestion_refl k _
  | selectEventReportForUpdate _ | selectReceiptForUpdate _ | selectProcessingReportForUpdate _ =>
    exact leaves_selectForUpdate k
  | deadLetterEvent _ _ | failAcceptedReport _ | updateEventDispatched _ | updateEventFailed _ _ _
  | updateReceiptExhausted _ | updateReportExhausted _ | updateReportProcessing _ | updateReportCompleted _
  | updateReceiptCompleted _ | updateReportFailed _ _ _ | updateReceiptFailed _ _ _ =>
    refine leaves_update (fun v => ?_) k
    first | rfl | trivial
  | _ => cases h

theorem aside_rule : Rule (ingestion Submitted) i Aside (Keeps sameIngestion i) := by
  refine keeps_rule sameIngestion_refl sameIngestion_trans ?_ ?_ ?_
  · intro q now busy db a outcome hKind hRun _ k
    subst hRun
    exact leaves_of_isAside hKind now busy db k
  · exact fun hKind hInv hKeeps _ => step_of_same hInv hKind hKeeps.2
  · intro x c s reply world _ hInv hAnswer
    exact ⟨ingested_of_same hInv (fun k => sameIngestion_refl k _) (answer_journal hAnswer),
      fun _ _ _ _ _ _ _ hEvent => hEvent⟩

theorem aside_query {q : Query} (h : isAside q = true) : Each Aside (query q) := each_query h

theorem aside_primary {q : Query} (h : isAside q = true) : Each Aside (primary q) :=
  each_transaction trivial (fun _ => trivial) (fun _ => trivial) (each_query h)

theorem aside_deadLetterEach {maxAttempts : Nat} (found : List Uuid) : Each Aside (deadLetterEach maxAttempts found) := by
  induction found with
  | nil => exact each_pure _
  | cons id rest ih => exact (aside_query rfl).bind fun event => ih.bind fun reports => each_pure _

theorem aside_failEach (reports : List Uuid) : Each Aside (failEach reports) := by
  induction reports with
  | nil => exact each_pure _
  | cons r rest ih => exact (aside_query rfl).bind fun _ => ih

theorem aside_publishEach {maxAttempts : Nat} (events : List LeasedEvent) : Each Aside (publishEach maxAttempts events) := by
  induction events with
  | nil => exact each_pure _
  | cons event rest ih =>
    refine (Each.tryCatch ?_ fun error => ?_).bind fun _ => ih
    · exact (each_external trivial).bind fun _ => (each_external trivial).bind fun _ =>
        (aside_primary rfl).bind fun _ => each_pure _
    · refine (aside_primary rfl).bind fun _ => ?_
      split
      · split
        · exact (aside_primary rfl).bind fun _ => each_pure _
        · exact each_pure _
      · exact each_pure _

theorem aside_dispatchOutbox {maxAttempts limit : Nat} : Each Aside (dispatchOutbox maxAttempts limit) := by
  refine Each.bind ?_ fun events => (aside_publishEach events).bind fun _ => each_pure _
  refine each_transaction trivial (fun _ => trivial) (fun _ => trivial) ?_
  exact (aside_query rfl).bind fun found => (aside_deadLetterEach found).bind fun exhausted =>
    (aside_failEach exhausted).bind fun _ => aside_query rfl

theorem aside_claimReport {e r : Uuid} {maxAttempts : Nat} : Each Aside (claimReport e r maxAttempts) := by
  refine (aside_query rfl).bind fun aggregate => (each_throwIf _).bind fun _ => (aside_query rfl).bind fun upserted => ?_
  split
  · exact (aside_query rfl).bind fun _ => each_pure _
  · refine (aside_query rfl).bind fun existing => ?_
    split
    · exact each_pure _
    · exact each_pure _
    · split
      · exact (aside_query rfl).bind fun _ => (aside_query rfl).bind fun _ => each_pure _
      · exact each_throw _
    · exact each_throw _
    · exact each_throw _

theorem aside_runScenarios {r : Uuid} {payload : Json} (scenarios : List (Uuid × Json)) :
    Each Aside (runScenarios r payload scenarios) := by
  induction scenarios with
  | nil => exact each_pure _
  | cons scenario rest ih =>
    refine Each.bind ?_ fun _ => ih
    unfold runScenario
    split
    · exact aside_query rfl
    · exact each_pure _
    · exact aside_query rfl

theorem aside_processReport {e r : Uuid} : Each Aside (processReport e r) := by
  refine (aside_query rfl).bind fun record => ?_
  split
  · exact each_throw _
  · exact (aside_query rfl).bind fun scenarios => (aside_runScenarios scenarios).bind fun _ =>
      (aside_query rfl).bind fun _ => (aside_query rfl).bind fun _ => each_pure _

theorem aside_recordFailure {e r : Uuid} {maxAttempts : Nat} (error : Failure) :
    Each Aside (recordFailure e r maxAttempts error) := by
  refine ((aside_primary rfl).bind fun attempts => each_pure _).bind fun attempts => ?_
  refine (each_transaction trivial (fun _ => trivial) (fun _ => trivial) ?_).bind fun _ => ?_
  · exact (aside_query rfl).bind fun _ => (aside_query rfl).bind fun _ => each_pure _
  · split
    · exact each_pure _
    · exact each_throw _

theorem aside_processReportEvent {event : ReportEvent} {maxAttempts : Nat} :
    Each Aside (processReportEvent event maxAttempts) := by
  unfold processReportEvent
  split
  · refine (each_transaction trivial (fun _ => trivial) (fun _ => trivial) aside_claimReport).bind fun claim => ?_
    split
    · exact each_pure _
    · exact each_pure _
    · refine Each.tryCatch ?_ fun error => aside_recordFailure error
      exact (each_transaction trivial (fun _ => trivial) (fun _ => trivial) aside_processReport).bind fun _ => each_pure _
  · exact each_throw _

/-! ### Cleanup -/

def IsAsideKey (k : Key) : Prop := ∀ old new, sameIngestion k old new

/-- What a cleanup may write; a report goes together with its index entry and its events. -/
inductive CleanupWrite (db : Db) (writes : List Write) : Write → Prop
  | ledger (projectId : Uuid) (key : String) : CleanupWrite db writes (remove (.idempotency projectId key))
  | report {id : Uuid} {report : Report} (stored : db.row (.report id) = some report)
      (index : remove (.reportContent report.projectId report.runId report.payloadSha256) ∈ writes)
      (events : ∀ e, EventOf db e id → remove (.outboxEvent e) ∈ writes) : CleanupWrite db writes (remove (.report id))
  | content {projectId id : Uuid} {runId hash : String} (stored : HasContent db id projectId runId hash)
      (gone : remove (.report id) ∈ writes) : CleanupWrite db writes (remove (.reportContent projectId runId hash))
  | event (e : Uuid) : CleanupWrite db writes (remove (.outboxEvent e))
  | aside {change : Write} (h : IsAsideKey change.key) : CleanupWrite db writes change

def Clears (i : ClientId) (writes : List Write) (s : Server) : Prop :=
  ∀ change ∈ writes, s.owner change.key = some i ∧ CleanupWrite s.rows writes change

theorem CleanupWrite.mono {db : Db} {writes' : List Write} {change : Write} (h : CleanupWrite db writes change)
    (hMore : ∀ change ∈ writes, change ∈ writes') : CleanupWrite db writes' change := by
  cases h with
  | ledger projectId key => exact .ledger projectId key
  | report stored index events => exact .report stored (hMore _ index) fun e hEvent => hMore _ (events e hEvent)
  | content stored gone => exact .content stored (hMore _ gone)
  | event e => exact .event e
  | aside h => exact .aside h

theorem cleared_row (h : Clears i writes s) {k : Key} (hKey : ¬IsAsideKey k) :
    (s.rows.apply writes).row k = s.rows.row k ∨
      (s.rows.apply writes).row k = none ∧ remove k ∈ writes ∧ CleanupWrite s.rows writes (remove k) := by
  rcases s.rows.apply_cases writes k with hSame | ⟨v, hMem, hView⟩
  · exact .inl hSame
  · refine .inr ?_
    have hWrite := (h _ hMem).2
    generalize hChange : (⟨k, v⟩ : Write) = change at hMem hWrite
    cases hWrite with
    | aside hAside =>
      subst hChange
      exact absurd hAside hKey
    | ledger projectId key => cases hChange; exact ⟨hView, hMem, .ledger projectId key⟩
    | report stored index events => cases hChange; exact ⟨hView, hMem, .report stored index events⟩
    | content stored gone => cases hChange; exact ⟨hView, hMem, .content stored gone⟩
    | event e => cases hChange; exact ⟨hView, hMem, .event e⟩

theorem gone_row (h : Clears i writes s) {k : Key} (hKey : ¬IsAsideKey k) (hMem : remove k ∈ writes) :
    (s.rows.apply writes).row k = none := by
  obtain ⟨v, hVersion, hView⟩ := s.rows.apply_mem_of_written ⟨_, hMem, rfl⟩
  have hWrite := (h _ hVersion).2
  generalize hChange : (⟨k, v⟩ : Write) = change at hWrite
  cases hWrite with
  | aside hAside =>
    subst hChange
    exact absurd hAside hKey
  | _ => cases hChange; exact hView

theorem not_aside_report {id : Uuid} : ¬IsAsideKey (.report id) := by
  intro h
  cases h none (some ⟨0, 0, "", "", .null, 0, .accepted, none, none⟩)

theorem not_aside_content {projectId : Uuid} {runId hash : String} : ¬IsAsideKey (.reportContent projectId runId hash) := by
  intro h
  cases h none (some (0 : Nat))

theorem not_aside_ledger {projectId : Uuid} {key : String} : ¬IsAsideKey (.idempotency projectId key) := by
  intro h
  cases h none (some ⟨"", 0, 0, 0⟩)

theorem not_aside_event {e : Uuid} : ¬IsAsideKey (.outboxEvent e) := by
  intro h
  cases h none (some ⟨0, ⟨0, none, none⟩, 0, 0, .pending, none, none, none, 0, none⟩)

theorem not_aside_project {id : Uuid} : ¬IsAsideKey (.project id) := by
  intro h
  cases h none (some ⟨0, "", ""⟩)

theorem not_aside_organization {id : Uuid} : ¬IsAsideKey (.organization id) := by
  intro h
  cases h none (some ⟨"", "", none⟩)

theorem Clears.since (h : Clears i writes s) (hSince : (ingestion Submitted).Since i s s') : Clears i writes s' := by
  intro change hMem
  obtain ⟨hOwner, hWrite⟩ := h change hMem
  refine ⟨hSince.owned hOwner, ?_⟩
  cases hWrite with
  | ledger projectId key => exact .ledger projectId key
  | report stored index events =>
    exact .report ((hSince.rows hOwner).trans stored) index fun e hEvent => events e (hSince.rely e _ hOwner hEvent)
  | content stored gone =>
    obtain ⟨report, hRow, hContent⟩ := stored
    exact .content ⟨report, (hSince.rows (h _ gone).1).trans hRow, hContent⟩ gone
  | event e => exact .event e
  | aside h => exact .aside h

def isCleanup : Query → Bool
  | .selectExpiredIdempotency | .deleteIdempotency _ _ | .selectSettledReports _ | .deleteReport _ _
  | .selectSettledEvents | .deleteEvent _ | .selectSettledReceipts | .deleteReceipt _ | .selectStaleInvitations
  | .deleteInvitation _ | .selectOldAudit _ | .deleteAudit _ _ => true
  | _ => false

theorem aside_jobReceipt (e : Uuid) : IsAsideKey (.jobReceipt e) := fun _ _ => trivial

theorem mem_cascade {db : Db} {e r : Uuid} (h : EventOf db e r) : remove (.outboxEvent e) ∈ cascadeReport db r := by
  obtain ⟨event, hRow, hReport⟩ := h
  refine List.mem_append_left _ (List.mem_flatMap.mpr ⟨e, ?_, by simp [eventRows]⟩)
  exact Rows.mem_select.mpr ⟨.outboxEvent e, event, hRow, by simp [hReport]⟩

theorem cascade_writes {db stored : Db} {r : Uuid} {change : Write} (h : change ∈ cascadeReport db r) :
    CleanupWrite stored writes change := by
  rcases List.mem_append.mp h with hMem | hMem
  · obtain ⟨e, _, hMem⟩ := List.mem_flatMap.mp hMem
    simp only [eventRows, List.mem_cons, List.not_mem_nil, or_false] at hMem
    rcases hMem with rfl | rfl
    · exact .aside (aside_jobReceipt e)
    · exact .event e
  · obtain ⟨k, v, _, hFound⟩ := Rows.mem_select.mp hMem
    split at hFound
    · split at hFound
      · cases hFound
        exact .aside fun _ _ => trivial
      · cases hFound
    · cases hFound

theorem clears_deleteReport {now days : Nat} {id : Uuid} (h : Clears i writes s) :
    ∀ change ∈ (deleteReport (s.rows.apply writes) now days id).writes,
      CleanupWrite s.rows (writes ++ (deleteReport (s.rows.apply writes) now days id).writes) change := by
  unfold deleteReport
  generalize hRun : update (s.rows.apply writes) (.report id) (isSettledReport now days) _ = outcome
  obtain ⟨report, hView, _, rfl⟩ | ⟨_, rfl⟩ := update_spec hRun
  · have hStored : s.rows.row (.report id) = some report := by
      rcases cleared_row h not_aside_report with hSame | ⟨hGone, _⟩
      · exact hSame.symm.trans hView
      · cases hGone.symm.trans hView
    have hEvents : ∀ e, EventOf s.rows e id → remove (.outboxEvent e) ∈
        writes ++ ([remove (.report id), remove (.reportContent report.projectId report.runId report.payloadSha256)] ++
          cascadeReport (s.rows.apply writes) id) := by
      rintro e ⟨event, hRow, hReport⟩
      rcases cleared_row h (k := .outboxEvent e) not_aside_event with hSame | ⟨_, hMem, _⟩
      · exact List.mem_append_right _ (List.mem_append_right _ (mem_cascade ⟨event, hSame.trans hRow, hReport⟩))
      · exact List.mem_append_left _ hMem
    intro change hMem
    rcases List.mem_append.mp hMem with hMem | hMem
    · simp only [List.mem_cons, List.not_mem_nil, or_false] at hMem
      rcases hMem with rfl | rfl
      · exact .report hStored (by simp) hEvents
      · exact .content ⟨report, hStored, rfl⟩ (by simp)
    · exact cascade_writes hMem
  · exact fun _ hMem => nomatch hMem

theorem clears_query {q : Query} (hKind : isCleanup q = true) (h : Clears i writes s) (now : Nat) (busy : Key → Bool) :
    ∀ change ∈ (execute q now busy (s.rows.apply writes)).writes,
      CleanupWrite s.rows (writes ++ (execute q now busy (s.rows.apply writes)).writes) change := by
  intro change hMem
  cases q with
  | selectExpiredIdempotency | selectSettledReports _ | selectSettledEvents | selectSettledReceipts
  | selectStaleInvitations | selectOldAudit _ => cases hMem
  | deleteReport days id => exact clears_deleteReport h change hMem
  | deleteIdempotency projectId key =>
    simp only [execute, deleteIdempotency] at hMem
    generalize hRun : update _ _ _ _ = outcome at hMem
    obtain ⟨_, _, _, rfl⟩ | ⟨_, rfl⟩ := update_spec hRun
    · cases List.mem_singleton.mp hMem
      exact .ledger projectId key
    · cases hMem
  | deleteEvent e =>
    simp only [execute, deleteEvent] at hMem
    generalize hRun : update _ _ _ _ = outcome at hMem
    obtain ⟨_, _, _, rfl⟩ | ⟨_, rfl⟩ := update_spec hRun
    · simp only [eventRows, List.mem_cons, List.not_mem_nil, or_false] at hMem
      rcases hMem with rfl | rfl
      · exact .aside (aside_jobReceipt e)
      · exact .event e
    · cases hMem
  | deleteReceipt e =>
    simp only [execute, deleteReceipt] at hMem
    generalize hRun : update _ _ _ _ = outcome at hMem
    obtain ⟨_, _, _, rfl⟩ | ⟨_, rfl⟩ := update_spec hRun
    · cases List.mem_singleton.mp hMem
      exact .aside (aside_jobReceipt e)
    · cases hMem
  | deleteInvitation id =>
    simp only [execute, deleteInvitation] at hMem
    generalize hRun : update _ _ _ _ = outcome at hMem
    obtain ⟨_, _, _, rfl⟩ | ⟨_, rfl⟩ := update_spec hRun
    · refine .aside ?_
      rcases List.mem_append.mp hMem with hMem | hMem
      · simp only [List.mem_cons, List.not_mem_nil, or_false] at hMem
        rcases hMem with rfl | rfl <;> exact fun _ _ => trivial
      · split at hMem
        · cases List.mem_singleton.mp hMem
          exact fun _ _ => trivial
        · cases hMem
    · cases hMem
  | deleteAudit days id =>
    simp only [execute, deleteAudit] at hMem
    generalize hRun : update _ _ _ _ = outcome at hMem
    obtain ⟨_, _, _, rfl⟩ | ⟨_, rfl⟩ := update_spec hRun
    · cases List.mem_singleton.mp hMem
      exact .aside fun _ _ => trivial
    · cases hMem
  | _ => cases hKind

theorem kept_row (h : Clears i writes s) {k : Key} {v : Row k} (hKey : ¬IsAsideKey k)
    (hView : (s.rows.apply writes).row k = some v) : s.rows.row k = some v := by
  rcases cleared_row h hKey with hSame | ⟨hGone, _⟩
  · exact hSame.symm.trans hView
  · cases hGone.symm.trans hView

theorem hasContent_kept {projectId id : Uuid} {runId hash : String} (h : Clears i writes s)
    (hContent : HasContent (s.rows.apply writes) id projectId runId hash) : HasContent s.rows id projectId runId hash := by
  obtain ⟨report, hView, hContent⟩ := hContent
  exact ⟨report, kept_row h not_aside_report hView, hContent⟩

theorem eventOf_kept {e r : Uuid} (h : Clears i writes s) (hEvent : EventOf (s.rows.apply writes) e r) :
    EventOf s.rows e r := by
  obtain ⟨event, hView, hReport⟩ := hEvent
  exact ⟨event, kept_row h not_aside_event hView, hReport⟩

theorem indexed_cleanup {projectId id : Uuid} {runId hash : String} (h : Ingested Submitted s.toCommitted)
    (hClears : Clears i writes s) : (s.rows.apply writes).row (.reportContent projectId runId hash) = some id ↔
      HasContent (s.rows.apply writes) id projectId runId hash := by
  constructor
  · intro hView
    obtain ⟨report, hRow, hContent⟩ := h.indexed.mp (kept_row hClears not_aside_content hView)
    rcases cleared_row hClears (k := .report id) not_aside_report with hSame | ⟨_, _, hWrite⟩
    · exact ⟨report, hSame.trans hRow, hContent⟩
    · cases hWrite with
      | aside hAside => exact absurd hAside not_aside_report
      | report stored index _ =>
        cases hRow.symm.trans stored
        cases hContent
        cases (gone_row hClears not_aside_content index).symm.trans hView
  · intro hContent
    have hStored := hasContent_kept hClears hContent
    have hIndex := h.indexed.mpr hStored
    rcases cleared_row hClears (k := .reportContent projectId runId hash) not_aside_content with hSame | ⟨_, _, hWrite⟩
    · exact hSame.trans hIndex
    · cases hWrite with
      | aside hAside => exact absurd hAside not_aside_content
      | content stored gone =>
        cases hIndex.symm.trans (h.indexed.mpr stored)
        obtain ⟨report, hView, _⟩ := hContent
        cases (gone_row hClears not_aside_report gone).symm.trans hView

theorem referred_cleanup {projectId : Uuid} {key : String} {record : IdempotencyRecord}
    (h : Ingested Submitted s.toCommitted) (hClears : Clears i writes s) (hDeferred : deferred writes s.rows = none)
    (hView : (s.rows.apply writes).row (.idempotency projectId key) = some record) :
    present (s.rows.apply writes) (.report record.reportId) = true := by
  have hStored := h.referred (kept_row hClears not_aside_ledger hView)
  rcases cleared_row hClears (k := .report record.reportId) not_aside_report with hSame | ⟨hGone, hMem, _⟩
  · rw [present, hSame]
    exact hStored
  · have hKeeps := (deferred_none hDeferred).1 _ hMem
    simp only [keepsReferences, remove, present, hGone, Option.isSome_none, Bool.false_or, beq_iff_eq] at hKeeps
    exact absurd ⟨record, hView, by simp [refersTo]⟩ (Rows.not_passes_of_count hKeeps (.idempotency projectId key))

theorem ingested_cleanup (h : Ingested Submitted s.toCommitted) (hClears : Clears i writes s)
    (hDeferred : deferred writes s.rows = none) :
    Ingested Submitted ⟨s.rows.apply writes, record (.entry .cleanup) i s.world, s.clock⟩ where
  indexed := indexed_cleanup h hClears
  referred hView := referred_cleanup h hClears hDeferred hView
  aggregates := by
    intro e r hEvent
    have hStored := h.aggregates (eventOf_kept hClears hEvent)
    rcases cleared_row hClears (k := .report r) not_aside_report with hSame | ⟨_, _, hWrite⟩
    · rw [present, hSame]
      exact hStored
    · cases hWrite with
      | aside hAside => exact absurd hAside not_aside_report
      | report _ _ events =>
        have hGone := gone_row hClears not_aside_event (events e (eventOf_kept hClears hEvent))
        obtain ⟨event, hView, _⟩ := hEvent
        cases hGone.symm.trans hView
  unique h₁ h₂ := h.unique (eventOf_kept hClears h₁) (eventOf_kept hClears h₂)
  recorded := by
    intro projectId key record hView
    obtain ⟨before, report, after, hSplit, hHash, hAfter, _⟩ := h.recorded (kept_row hClears not_aside_ledger hView)
    refine ⟨before, report, after ++ [.cleanup], ?_, hHash, ?_, ?_⟩
    · simp [GhostApi.Hosted.record, hSplit]
    · intro entry hMem
      rcases List.mem_append.mp hMem with hMem | hMem
      · exact hAfter entry hMem
      · cases List.mem_singleton.mp hMem
        trivial
    · exact fun hNone => absurd (List.mem_append_right _ (List.mem_singleton_self _)) hNone
  submitted hMem := by
    rcases List.mem_append.mp hMem with hMem | hMem
    · exact h.submitted hMem
    · cases List.mem_singleton.mp hMem
  housed := by
    intro projectId project hView
    have hStored := h.housed (kept_row hClears not_aside_project hView)
    rcases cleared_row hClears (k := .organization project.organizationId) not_aside_organization with hSame | ⟨_, _, hWrite⟩
    · rw [present, hSame]
      exact hStored
    · cases hWrite with
      | aside hAside => exact absurd hAside not_aside_organization

def Sweeping : Op Query External Note Failure → Prop
  | .query q => isCleanup q = true
  | .commit note => note = .entry .cleanup
  | .external _ => False
  | _ => True

theorem sweeping_rule : Rule (ingestion Submitted) i Sweeping (Clears i) where
  nil _ := fun _ hMem => nomatch hMem
  since h hSince := h.since hSince
  query {q now writes s a outcome} hKind hInv h hRun _ _ := by
    subst hRun
    intro change hMem
    rcases List.mem_append.mp hMem with hMem | hMem
    · obtain ⟨hOwner, hWrite⟩ := h change hMem
      have hLocked := (Since.lock (show (ingestion Submitted).Inv s.toCommitted from hInv)
        (execute q now (s.busy i) (s.rows.apply writes)).keys).owned hOwner
      exact ⟨hLocked, hWrite.mono fun _ => List.mem_append_left _⟩
    · exact ⟨owner_lock_of_mem (List.mem_append_right _ (List.mem_map_of_mem hMem)),
        clears_query hKind h now (s.busy i) change hMem⟩
  commit {note writes s} hKind hInv h hDeferred := by
    cases hKind
    exact ⟨ingested_cleanup hInv h hDeferred, fun _ _ _ _ _ _ _ hEvent => eventOf_kept h hEvent⟩
  external hKind _ _ := hKind.elim

theorem sweeping_deleteEach {α β : Type} {delete : α → Program (Option β)} (found : List α)
    (h : ∀ row, Each Sweeping (delete row)) : Each Sweeping (deleteEach delete found) := by
  induction found with
  | nil => exact each_pure _
  | cons row rest ih => exact (h row).bind fun _ => ih.bind fun _ => each_pure _

theorem sweeping_query {q : Query} (h : isCleanup q = true) : Each Sweeping (query q) := each_query h

theorem sweeping_runCleanup {config : Retention} : Each Sweeping (runCleanup config) := by
  refine each_transaction trivial (fun _ => rfl) (fun _ => trivial) ?_
  refine (sweeping_query rfl).bind fun _ => (sweeping_deleteEach _ fun _ => sweeping_query rfl).bind fun _ => ?_
  refine (sweeping_query rfl).bind fun _ => (sweeping_deleteEach _ fun _ => sweeping_query rfl).bind fun _ => ?_
  refine (sweeping_query rfl).bind fun _ => (sweeping_deleteEach _ fun _ => sweeping_query rfl).bind fun _ => ?_
  refine (sweeping_query rfl).bind fun _ => (sweeping_deleteEach _ fun _ => sweeping_query rfl).bind fun _ => ?_
  refine (sweeping_query rfl).bind fun _ => (sweeping_deleteEach _ fun _ => sweeping_query rfl).bind fun _ => ?_
  exact (sweeping_query rfl).bind fun _ => (sweeping_deleteEach _ fun _ => sweeping_query rfl).bind fun _ => each_pure _

end Programs

end GhostApi.Hosted
