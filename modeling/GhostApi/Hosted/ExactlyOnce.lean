import GhostApi.Hosted.Accepting
import GhostApi.Js.Canonical

/-!
# One report for each idempotency key

In every run of submissions, dispatchers, deliveries and cleanups a record of
the ledger stands for one report, which all calls with its key have answered
since. A call with its key and another body is refused.
-/

namespace GhostApi.Hosted

open Js Sql Sql.Protocol Effect Transition

/-- The bodies are JSON values, and sha256 tells them apart. -/
structure Distinguished (Submitted : Json → Prop) : Prop where
  plain : ∀ {body}, Submitted body → body.Plain
  distinct : ∀ {body other}, Submitted body → Submitted other → sha256 body.canonical = sha256 other.canonical →
    body.canonical = other.canonical

structure Unsubmitted (s : Server) : Prop where
  journal : s.world.journal = []
  ledger : ∀ {projectId key}, s.rows.row (.idempotency projectId key) = none
  indexed : ∀ {projectId runId hash id}, s.rows.row (.reportContent projectId runId hash) = some id ↔
    HasContent s.rows id projectId runId hash
  aggregates : ∀ {e r}, EventOf s.rows e r → present s.rows (.report r) = true
  unique : ∀ {e e' r}, EventOf s.rows e r → EventOf s.rows e' r → e = e'
  housed : ∀ {projectId} {project : Project}, s.rows.row (.project projectId) = some project →
    present s.rows (.organization project.organizationId) = true

def IsIngestion (Submitted : Json → Prop) : Call → Prop
  | .submitReport input => Submitted input.report
  | .dispatchOutbox _ _ | .processReportEvent _ _ | .runCleanup _ => True
  | _ => False

/-- What every call answered that came after the first one with the key. -/
def Follows (projectId : Uuid) (key : String) (first : Json) (reportId : Uuid) : JournalEntry → Prop
  | .report p k body id status => p = projectId → k = key →
    id = reportId ∧ status = .duplicate ∧ body.ordered = first.ordered
  | .cleanup => True

/-- The first of the calls that the record stands for; an event waits for each until a cleanup. -/
def IsFirst (s : Server) (projectId : Uuid) (key : String) (record : IdempotencyRecord) (first : Json) : Prop :=
  requestHash first = record.requestSha256 ∧ ∃ before after,
    s.world.journal = before ++ .report projectId key first record.reportId .accepted :: after ∧
    (∀ entry ∈ after, Follows projectId key first record.reportId entry) ∧
    (.cleanup ∉ after → ∃ e, EventOf s.rows e record.reportId)

/-- What holds of all records and all calls of a state. A watched client finds the record that it was told of. -/
structure OncePerKey (Submitted : Json → Prop) (watched : ClientId → Prop) (s : System) : Prop where
  stands : ∀ {projectId key} {record : IdempotencyRecord}, s.server.rows.row (.idempotency projectId key) = some record →
    present s.server.rows (.report record.reportId) = true ∧ (∃ first, IsFirst s.server projectId key record first) ∧
      ∀ e e', EventOf s.server.rows e record.reportId → EventOf s.server.rows e' record.reportId → e = e'
  commits : ∀ {i input t note next}, s.client i = some ⟨.submitReport input, some t, .call (.commit note) next⟩ →
    ∃ accepted, note = input.entry accepted ∧ Creates s.server.rows (s.server.rows.apply t.writes) accepted ∧
      ∀ (record : IdempotencyRecord) first,
        s.server.rows.row (.idempotency input.projectId input.idempotencyKey) = some record →
        IsFirst s.server input.projectId input.idempotencyKey record first →
        accepted = ⟨record.reportId, .duplicate⟩ ∧ input.report.ordered = first.ordered
  refuses : ∀ {i input t cause next}, s.client i = some ⟨.submitReport input, t, .call (.rollback cause) next⟩ →
    IsValid input → present s.server.rows input.key = true →
    cause = conflictError ∨ (cause = .error "Idempotency record disappeared." ∧ ¬watched i) ∨ ∃ d, cause = .database d
  /-- Where nobody else takes a step, another body is refused and the rows stay as they are. -/
  alone : ∀ {i input} {record : IdempotencyRecord} {first id draws},
    s.server.rows.row (.idempotency input.projectId input.idempotencyKey) = some record →
    IsFirst s.server input.projectId input.idempotencyKey record first → Submitted input.report → IsValid input →
    input.report.ordered ≠ first.ordered →
      Yields engine i (submitReport input) (.uuid id :: draws) (none, ⟨s.server.toCommitted, fun _ => none⟩)
        (.error conflictError) draws (none, ⟨s.server.toCommitted, fun _ => none⟩)

section Runs

variable {Submitted : Json → Prop} {watched : ClientId → Prop} {initial s : Server} {events : List Event}
  {system : System} {i : ClientId} {input : ReportInput} {record : IdempotencyRecord} {first : Json} {id : Uuid}
  {draws : List Chance}

theorem Unsubmitted.ingested (h : Unsubmitted initial) : Ingested Submitted initial.toCommitted where
  indexed := h.indexed
  referred hRow := nomatch h.ledger.symm.trans hRow
  aggregates := h.aggregates
  unique := h.unique
  recorded hRow := nomatch h.ledger.symm.trans hRow
  submitted hMem := by
    rw [h.journal] at hMem
    cases hMem
  housed := h.housed

theorem at_of_other {call : Call} {op : Op Query External Note Failure} {t : Option (Transaction Row)} {watched : Prop}
    (h : ∀ input, call ≠ .submitReport input) : (acceptance watched call).At op t s := by
  cases op with
  | commit note =>
    cases t with
    | some t => exact fun input hCall => absurd hCall (h input)
    | none => trivial
  | rollback cause => exact fun input hCall => absurd hCall (h input)
  | _ => cases t <;> trivial

theorem call_secure {call : Call} (hCall : IsIngestion Submitted call) :
    (ingestion Submitted).Secure i (findsRecord (watched i) i) (acceptance (watched i) call) (fun _ _ _ => True)
      call.program none s := by
  have hNoTxn : ∀ {W : List Write → Server → Prop} (t : Transaction Row), none = some t → t.aborted = false → W t.writes s :=
    fun _ h => nomatch h
  cases call with
  | submitReport input => exact submission_secure hCall
  | dispatchOutbox maxAttempts limit =>
    exact aside_rule.secure (fun _ => at_of_other (by rintro _ ⟨⟩)) (aside_dispatchOutbox.bind fun _ => each_pure ()) hNoTxn
  | processReportEvent event maxAttempts =>
    exact aside_rule.secure (fun _ => at_of_other (by rintro _ ⟨⟩)) (aside_processReportEvent.bind fun _ => each_pure ()) hNoTxn
  | runCleanup config =>
    exact sweeping_rule.secure (fun _ => at_of_other (by rintro _ ⟨⟩)) (sweeping_runCleanup.bind fun _ => each_pure ()) hNoTxn
  | _ => cases hCall

theorem isFirst_of_recorded (hSubmitted : Distinguished Submitted) (hInv : Ingested Submitted s.toCommitted)
    {projectId : Uuid} {key : String} (hRow : s.rows.row (.idempotency projectId key) = some record) :
    ∃ first, IsFirst s projectId key record first := by
  obtain ⟨before, first, after, hSplit, hHash, hAfter, hEvent⟩ := hInv.recorded hRow
  have hKnown : ∀ {p k body r status}, .report p k body r status ∈ before ++ .report projectId key first record.reportId .accepted :: after →
      Submitted body := fun hMem => hInv.submitted (hSplit ▸ hMem)
  refine ⟨first, hHash, before, after, hSplit, fun entry hMem => ?_, hEvent⟩
  have hRepeats := hAfter entry hMem
  cases entry with
  | cleanup => trivial
  | report p k body r status =>
    intro hProject hKey
    obtain ⟨hReport, hStatus, hSame⟩ := hRepeats hProject hKey
    have hBody : Submitted body := hKnown (List.mem_append_right _ (List.mem_cons_of_mem _ hMem))
    have hFirst : Submitted first := hKnown (List.mem_append_right _ List.mem_cons_self)
    exact ⟨hReport, hStatus, Json.canonical_injective (hSubmitted.plain hBody) (hSubmitted.plain hFirst)
      (hSubmitted.distinct hBody hFirst (hSame.trans hHash.symm))⟩

theorem IsFirst.same {projectId : Uuid} {key : String} {body : Json} (h : IsFirst s projectId key record first)
    (hSubmitted : Distinguished Submitted) (hInv : Ingested Submitted s.toCommitted) (hBody : Submitted body)
    (hHash : record.requestSha256 = requestHash body) : body.ordered = first.ordered := by
  obtain ⟨hSame, before, after, hSplit, _⟩ := h
  have hMem : .report projectId key first record.reportId .accepted ∈ s.world.journal := by simp [hSplit]
  have hFirst : Submitted first := hInv.submitted hMem
  exact Json.canonical_injective (hSubmitted.plain hBody) (hSubmitted.plain hFirst)
    (hSubmitted.distinct hBody hFirst (hHash.symm.trans hSame.symm))

theorem ingestion_good (hStart : Unsubmitted initial)
    (run : (service initial).Run (System.Allowed (IsIngestion Submitted) fun i => findsRecord (watched i) i) events system) :
    (ingestion Submitted).Good (fun i => findsRecord (watched i) i) (fun i call => acceptance (watched i) call) system :=
  good_of_run hStart.ingested (fun _ _ _ hCall _ => call_secure hCall) run

/-- In every run of submissions, dispatchers, deliveries and cleanups each record of the ledger stands for one report
and one event, and a call with its key and another body is refused. -/
theorem once_per_key (hSubmitted : Distinguished Submitted) (hStart : Unsubmitted initial)
    (run : (service initial).Run (System.Allowed (IsIngestion Submitted) fun i => findsRecord (watched i) i) events system) :
    OncePerKey Submitted watched system := by
  have hGood := ingestion_good hStart run
  have hInv : Ingested Submitted system.server.toCommitted := hGood.inv
  constructor
  · exact fun hRow => ⟨hInv.referred hRow, isFirst_of_recorded hSubmitted hInv hRow, fun _ _ => hInv.unique⟩
  · intro i input t note next hClient
    obtain ⟨accepted, hNote, hCreates, hMatches⟩ := hGood.at_op hClient rfl trivial input rfl
    have hBody : IsIngestion Submitted (.submitReport input) := System.admitted_of_run run hClient
    refine ⟨accepted, hNote, hCreates, fun record first hRow hFirst => ?_⟩
    obtain ⟨hAccepted, hHash⟩ := hMatches record hRow
    exact ⟨hAccepted, hFirst.same hSubmitted hInv hBody hHash⟩
  · intro i input t cause next hClient
    exact hGood.at_op hClient rfl trivial input rfl
  · intro i input record first id draws hRow hFirst hBody hValid hOther
    have hHash : record.requestSha256 ≠ requestHash input.report :=
      fun hSame => hOther (hFirst.same hSubmitted hInv hBody hSame)
    exact (conflict_fails hValid hRow hHash).bind.transaction

end Runs

theorem distinguished_emptyReport : Distinguished (· = emptyReport) where
  plain := by
    rintro _ rfl
    exact ⟨trivial, trivial, trivial, trivial⟩
  distinct := by
    rintro _ _ rfl rfl _
    rfl

theorem unsubmitted_oneProject : Unsubmitted oneProject where
  journal := rfl
  ledger := by simp [oneProject]
  indexed := oneProject_indexed
  aggregates := by simp [oneProject, EventOf]
  unique := by simp [oneProject, EventOf]
  housed := oneProject_housed

theorem unwatched {admits : Call → Prop} (s : System) (event : Event)
    (h : System.Allowed admits (fun _ _ _ => True) s event) : System.Allowed admits (fun i => findsRecord False i) s event := by
  cases event with
  | advance i choice =>
    intro client op next _ _
    unfold findsRecord
    split
    · exact False.elim
    · trivial
  | start i call => exact h
  | stop i => trivial
  | tick time => trivial
  | outside c => trivial

theorem once_per_key_of_submission : ∃ (events : List Event) (system : System) (record : IdempotencyRecord),
    (service oneProject).Run (System.Allowed (IsIngestion (· = emptyReport)) fun i => findsRecord False i) events system ∧
    system.server.rows.row (.idempotency 1 "first-submission") = some record ∧ record.reportId = 3 ∧
    OncePerKey (· = emptyReport) (fun _ => False) system := by
  obtain ⟨events, system, tail, hRun, hTail, _, hRows⟩ := submission_run (rfl : validateIdempotencyKey "first-submission" = _)
    (show IsIngestion (· = emptyReport) (.submitReport (submission "first-submission")) from rfl)
  have hAfter : After oneProject.rows system.server.rows (submission "first-submission") 3 4
      ((submission "first-submission").toRecord 3 oneProject.clock) ((submission "first-submission").stored oneProject.clock)
      (acceptedEvent 3 4 oneProject.clock) := hRows ▸ after_newRows fun change hMem => (hTail change hMem).aside
  have hRun := hRun.mono unwatched
  exact ⟨events, system, (submission "first-submission").toRecord 3 oneProject.clock, hRun, hAfter.ledger, rfl,
    once_per_key distinguished_emptyReport unsubmitted_oneProject hRun⟩

end GhostApi.Hosted
