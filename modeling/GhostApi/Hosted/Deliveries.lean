import GhostApi.Hosted.Calls
import GhostApi.Lib.Sql.Runs

/-!
# Deliveries of report events

Any number of deliveries share the reports and their receipts. A report is
completed exactly when its receipt is. A failure transaction is the only one
that takes a completed report back: it changes report and receipt by their id
alone. A delivery that claims holds the lock on the receipt from its upsert to
its end, so that what it answers is what the receipt says.
-/

namespace GhostApi.Hosted

open Js Sql Sql.Protocol Effect Transition

def ReportIs (db : Db) (id : Uuid) (status : ReportStatus) : Prop :=
  ∃ report : Report, db.row (.report id) = some report ∧ report.status = status

def ReceiptIs (db : Db) (eventId : Uuid) (status : JobStatus) : Prop :=
  ∃ receipt : JobReceipt, db.row (.jobReceipt eventId) = some receipt ∧ receipt.status = status

/-- Each report has one event, and is completed exactly when the receipt of that event is. -/
structure Consistent (db : Db) : Prop where
  unique : ∀ {e e' r}, EventOf db e r → EventOf db e' r → e = e'
  stored : ∀ {e r}, EventOf db e r → present db (.report r) = true
  agree : ∀ {e r}, EventOf db e r → (ReportIs db r .completed ↔ ReceiptIs db e .completed)
  lease : ∀ {e} {receipt : JobReceipt}, db.row (.jobReceipt e) = some receipt → receipt.status = .processing →
    ∃ expiry, receipt.leaseExpiresAt = some expiry

/-- Deliveries leave all events as they are, and delete no receipt and no report. -/
structure Kept (db db' : Db) : Prop where
  events : ∀ e, db'.row (.outboxEvent e) = db.row (.outboxEvent e)
  receipts : ∀ e, present db (.jobReceipt e) = true → present db' (.jobReceipt e) = true
  reports : ∀ r, present db (.report r) = true → present db' (.report r) = true

theorem Kept.refl (db : Db) : Kept db db := ⟨fun _ => rfl, fun _ => id, fun _ => id⟩

theorem Kept.trans {db₁ db₂ db₃ : Db} (h : Kept db₁ db₂) (h' : Kept db₂ db₃) : Kept db₁ db₃ where
  events e := (h'.events e).trans (h.events e)
  receipts e he := h'.receipts e (h.receipts e he)
  reports r hr := h'.reports r (h.reports r hr)

theorem Kept.eventOf {db db' : Db} {e r : Uuid} (h : Kept db db') : EventOf db' e r ↔ EventOf db e r := by
  rw [EventOf, EventOf, h.events]

def deliveries : Protocol engine where
  Inv c := Consistent c.rows
  rely _ _ c c' := Kept c.rows c'.rows
  refl _ _ c := .refl c.rows
  trans h h' := h.trans h'
  anti _ h := h
  tick _ h := ⟨h, fun _ _ => .refl _⟩
  outside h _ := ⟨h, fun _ _ => .refl _⟩
  halt _ h := ⟨h, fun _ _ _ => .refl _⟩

/-! ## What a commit of a delivery does -/

section Commit

variable {db : Db} {writes : List Write} {e r : Uuid}

/-- The rows that a delivery of an event for a report writes. -/
def IsDeliveryWrite (e r : Uuid) (change : Write) : Prop :=
  change.key = .jobReceipt e ∨ change.key = .report r ∨ ∃ a b, change.key = .scenarioResult a b

theorem unwritten {k : Key} (hKeys : ∀ change ∈ writes, IsDeliveryWrite e r change) (hReceipt : k ≠ .jobReceipt e)
    (hReport : k ≠ .report r) (hResult : ∀ a b, k ≠ .scenarioResult a b) : (db.apply writes).row k = db.row k := by
  refine Rows.apply_of_unwritten fun change hMem hKey => ?_
  rcases hKeys change hMem with h | h | ⟨a, b, h⟩
  · exact hReceipt (hKey.symm.trans h)
  · exact hReport (hKey.symm.trans h)
  · exact hResult a b (hKey.symm.trans h)

theorem reportIs_of_ne (hKeys : ∀ change ∈ writes, IsDeliveryWrite e r change) {r' : Uuid} {status : ReportStatus}
    (hne : r' ≠ r) : ReportIs (db.apply writes) r' status ↔ ReportIs db r' status := by
  have hRow : (db.apply writes).row (.report r') = db.row (.report r') := unwritten hKeys nofun (by simpa using hne) nofun
  rw [ReportIs, ReportIs, hRow]

theorem keepsCompleted_of_open (hKeys : ∀ change ∈ writes, IsDeliveryWrite e r change)
    (hOpen : ¬ReportIs db r .completed) : ∀ r', ReportIs db r' .completed → ReportIs (db.apply writes) r' .completed := by
  intro r' hr'
  have hne : r' ≠ r := fun hSame => hOpen (hSame ▸ hr')
  exact (reportIs_of_ne hKeys hne).mpr hr'

theorem consistent_commit (receipt : JobReceipt) (h : Consistent db) (hEvent : EventOf db e r)
    (hKeys : ∀ change ∈ writes, IsDeliveryWrite e r change)
    (hReceipt : (db.apply writes).row (.jobReceipt e) = some receipt)
    (hLease : receipt.status = .processing → ∃ expiry, receipt.leaseExpiresAt = some expiry)
    (hReport : present (db.apply writes) (.report r) = true)
    (hAgree : ReportIs (db.apply writes) r .completed ↔ receipt.status = .completed) :
    Consistent (db.apply writes) ∧ Kept db (db.apply writes) := by
  have hEvents : ∀ e', (db.apply writes).row (.outboxEvent e') = db.row (.outboxEvent e') :=
    fun e' => unwritten hKeys nofun nofun nofun
  have hOtherReceipt : ∀ {e'}, e' ≠ e → (db.apply writes).row (.jobReceipt e') = db.row (.jobReceipt e') :=
    fun hne => unwritten hKeys (by simpa using hne) nofun nofun
  have hOtherReport : ∀ {r'}, r' ≠ r → (db.apply writes).row (.report r') = db.row (.report r') :=
    fun hne => unwritten hKeys nofun (by simpa using hne) nofun
  have hKept : Kept db (db.apply writes) := by
    refine ⟨hEvents, fun e' he' => ?_, fun r' hr' => ?_⟩
    · by_cases hne : e' = e
      · subst hne
        exact present_iff.mpr ⟨receipt, hReceipt⟩
      · rw [present, hOtherReceipt hne]
        exact he'
    · by_cases hne : r' = r
      · subst hne
        exact hReport
      · rw [present, hOtherReport hne]
        exact hr'
  refine ⟨⟨?_, ?_, ?_, ?_⟩, hKept⟩
  · exact fun h₁ h₂ => h.unique (hKept.eventOf.mp h₁) (hKept.eventOf.mp h₂)
  · exact fun h₁ => hKept.reports _ (h.stored (hKept.eventOf.mp h₁))
  · intro e' r' hEvent'
    have hBefore := hKept.eventOf.mp hEvent'
    by_cases hne : e' = e
    · subst hne
      obtain ⟨event, hRow, rfl⟩ := hEvent
      obtain ⟨event', hRow', rfl⟩ := hBefore
      cases hRow.symm.trans hRow'
      rw [hAgree, ReceiptIs, hReceipt]
      simp
    · have hReportNe : r' ≠ r := fun hSame => hne (h.unique hBefore (hSame ▸ hEvent))
      rw [ReportIs, ReceiptIs, hOtherReport hReportNe, hOtherReceipt hne]
      exact h.agree hBefore
  · intro e' receipt' hRow hStatus
    by_cases hne : e' = e
    · subst hne
      cases hReceipt.symm.trans hRow
      exact hLease hStatus
    · rw [hOtherReceipt hne] at hRow
      exact h.lease hRow hStatus

end Commit

/-! ## Verdicts -/

def Waits (db : Db) (now maxAttempts : Nat) (e : Uuid) : Prop :=
  ∃ receipt : JobReceipt, db.row (.jobReceipt e) = some receipt ∧ receipt.status = .processing ∧
    receipt.isClaimable now maxAttempts = false

def Answers (db after : Db) (now maxAttempts : Nat) (e r : Uuid) : Claim → Prop
  | .claimed => (∀ receipt : JobReceipt, db.row (.jobReceipt e) = some receipt →
    receipt.isClaimable now maxAttempts = true) ∧ ReceiptIs after e .processing
  | .duplicate => ReceiptIs db e .completed ∨ ReceiptIs db e .deadLetter
  | .deadLetter => ReceiptIs db e .failed ∧ ReportIs after r .failed ∧ ReceiptIs after e .deadLetter

def KeepsCompleted (db after : Db) : Prop := ∀ r, ReportIs db r .completed → ReportIs after r .completed

/-- A failure transaction does not meet a completed report. -/
def failsInTime (late : Prop) : Guard := fun _ op session => match op, session with
  | .query (.updateReportFailed r _ _), (some t, s) => late → ¬ReportIs (s.rows.apply t.writes) r .completed
  | _, _ => True

def verdicts (late : Prop) (call : Call) : Assertion engine where
  commit note t s := (late → KeepsCompleted s.rows (s.rows.apply t.writes)) ∧ ∀ e r maxAttempts claim,
    call = .processReportEvent ⟨1, some e, some r⟩ maxAttempts → note = .claim claim →
      Answers s.rows (s.rows.apply t.writes) t.now maxAttempts e r claim
  rollback cause t s := ∀ e r maxAttempts, call = .processReportEvent ⟨1, some e, some r⟩ maxAttempts →
    match cause with
    | .jobLeaseActive => ∃ t', t = some t' ∧ Waits s.rows t'.now maxAttempts e
    | .database _ => True
    | cause => cause = .error "report_not_processable" ∨ ¬EventOf s.rows e r
  free _ _ _ := fun _ _ _ _ => trivial

/-! ## The transactions of a delivery -/

section Transactions

variable {i : ClientId} {late : Prop} {call : Call} {start s s' : Server} {e r : Uuid} {writes : List Write}

/-- What a delivery knows of its event once it has claimed the report. -/
def Claimed (s : Server) (e r : Uuid) : Prop := EventOf s.rows e r ∧ present s.rows (.jobReceipt e) = true

theorem Claimed.later (h : Claimed s e r) (hLater : deliveries.Later i s s') : Claimed s' e r :=
  ⟨hLater.rely.eventOf.mpr h.1, hLater.rely.receipts e h.2⟩

theorem step_of_commit {note : Note} (h : Consistent (s.rows.apply writes) ∧ Kept s.rows (s.rows.apply writes)) :
    deliveries.Step i s (s.commit engine i writes note) := ⟨h.1, fun _ _ _ _ => h.2⟩

theorem closes_nothing {note : Note} {Done : Server → Prop}
    (hNote : ∀ s₁ e r maxAttempts claim, deliveries.Since i s s₁ →
      call = .processReportEvent ⟨1, some e, some r⟩ maxAttempts → note = .claim claim →
      Answers s₁.rows s₁.rows start.clock maxAttempts e r claim)
    (hDone : ∀ s', deliveries.Later i s s' → Done s') :
    deliveries.Closes i (failsInTime late i) (verdicts late call) start note Done [] s := by
  intro s₁ hSince _
  refine ⟨⟨fun _ _ h => h, fun e r maxAttempts claim => hNote s₁ e r maxAttempts claim hSince⟩, fun _ => ⟨?_, ?_⟩⟩
  · exact step_of_commit ⟨hSince.inv, .refl _⟩
  · exact hDone _ (hSince.later.trans ⟨hSince.inv, Nat.le_refl _, .refl _⟩)

theorem upsertReceipt_spec {db : Db} {now maxAttempts : Nat} {outcome : Result Bool} {a : Bool}
    (h : upsertReceipt db now maxAttempts e = outcome) (hReply : outcome.reply = .ok a) :
    (a = true ∧ (∀ receipt : JobReceipt, db.row (.jobReceipt e) = some receipt →
        receipt.isClaimable now maxAttempts = true) ∧ ∃ receipt : JobReceipt, receipt.status = .processing ∧
        receipt.leaseExpiresAt = some (now + seconds 300) ∧
        outcome = write [set (.jobReceipt e) receipt] true) ∨
      a = false ∧ ∃ receipt : JobReceipt, db.row (.jobReceipt e) = some receipt ∧
        receipt.isClaimable now maxAttempts = false ∧ outcome = lockRow (.jobReceipt e) false := by
  subst h
  unfold upsertReceipt at hReply ⊢
  split at hReply
  · rename_i hNone
    split at hReply
    · rename_i hEvent
      cases hReply
      rw [if_pos hEvent]
      exact .inl ⟨rfl, fun _ h => absurd (hNone.symm.trans h) nofun, _, rfl, rfl, rfl⟩
    · cases hReply
  · rename_i receipt hRow
    split at hReply
    · rename_i hClaimable
      cases hReply
      rw [if_pos hClaimable]
      refine .inl ⟨rfl, fun other hOther => ?_, _, rfl, rfl, rfl⟩
      cases hRow.symm.trans hOther
      exact hClaimable
    · rename_i hOut
      cases hReply
      rw [if_neg hOut]
      exact .inr ⟨rfl, receipt, hRow, Bool.eq_false_iff.mpr hOut, rfl⟩

theorem not_completed_of_claimable {receipt : JobReceipt} {now maxAttempts : Nat}
    (h : receipt.isClaimable now maxAttempts = true) : receipt.status ≠ .completed := by
  intro hStatus
  simp [JobReceipt.isClaimable, hStatus] at h

theorem not_waiting {receipt : JobReceipt} (hRow : s.rows.row (.jobReceipt e) = some receipt) {now maxAttempts : Nat}
    (hOut : receipt.isClaimable now maxAttempts = false) (hStatus : receipt.status = .processing ∨
      receipt.status = .failed ∧ receipt.attempts < maxAttempts) : Waits s.rows now maxAttempts e := by
  refine ⟨receipt, hRow, ?_, hOut⟩
  rcases hStatus with hStatus | ⟨hStatus, hAttempts⟩
  · exact hStatus
  · simp [JobReceipt.isClaimable, hStatus, hAttempts] at hOut

theorem waits_rollback {maxAttempts : Nat} {t : Option (Transaction Row)} {t' : Transaction Row} (ht : t = some t')
    (h : Waits s.rows t'.now maxAttempts e) :
    (verdicts late (.processReportEvent ⟨1, some e, some r⟩ maxAttempts)).rollback .jobLeaseActive t s := by
  rintro e' r' maxAttempts' ⟨⟩
  exact ⟨t', ht, h⟩

theorem closes_claimed {maxAttempts : Nat} {receipt : JobReceipt} (hEvent : EventOf s.rows e r)
    (hOwner : s.owner (.jobReceipt e) = some i) (hFree : ∀ receipt : JobReceipt, s.rows.row (.jobReceipt e) = some receipt →
      receipt.isClaimable start.clock maxAttempts = true) (hStatus : receipt.status = .processing)
    (hLease : ∃ expiry, receipt.leaseExpiresAt = some expiry)
    (hWrites : writes = [set (.jobReceipt e) receipt] ∨ ∃ report : Report, report.status = .processing ∧
      writes = [set (.jobReceipt e) receipt, set (.report r) report]) :
    deliveries.Closes i (failsInTime late i) (verdicts late (.processReportEvent ⟨1, some e, some r⟩ maxAttempts)) start
      (.claim .claimed) (fun s => Claim.claimed = .claimed → Claimed s e r) writes s := by
  intro s₁ hSince _
  have hEvent₁ : EventOf s₁.rows e r := hSince.rely.eventOf.mpr hEvent
  have hFree₁ : ∀ receipt : JobReceipt, s₁.rows.row (.jobReceipt e) = some receipt →
      receipt.isClaimable start.clock maxAttempts = true := fun receipt hRow =>
    hFree receipt ((hSince.rows hOwner).symm.trans hRow)
  have hOpen : ¬ReportIs s₁.rows r .completed := by
    rw [hSince.inv.agree hEvent₁]
    rintro ⟨receipt, hRow, hCompleted⟩
    exact not_completed_of_claimable (hFree₁ receipt hRow) hCompleted
  have hKeys : ∀ change ∈ writes, IsDeliveryWrite e r change := by
    rcases hWrites with rfl | ⟨report, _, rfl⟩ <;> simp [IsDeliveryWrite, set]
  have hReceipt : (s₁.rows.apply writes).row (.jobReceipt e) = some receipt := by
    rcases hWrites with rfl | ⟨report, _, rfl⟩ <;> simp
  have hStored : present s₁.rows (.report r) = true := hSince.inv.stored hEvent₁
  have hReport : present (s₁.rows.apply writes) (.report r) = true ∧ ¬ReportIs (s₁.rows.apply writes) r .completed := by
    rcases hWrites with rfl | ⟨report, hProcessing, rfl⟩
    · have hSame : (s₁.rows.apply [set (.jobReceipt e) receipt]).row (.report r) = s₁.rows.row (.report r) := by simp
      rw [present, ReportIs, hSame]
      exact ⟨hStored, hOpen⟩
    · simp [present, ReportIs, hProcessing]
  obtain ⟨hPresent, hNotCompleted⟩ := hReport
  have hCommit := consistent_commit receipt hSince.inv hEvent₁ hKeys hReceipt (fun _ => hLease) hPresent
    (by simp [hNotCompleted, hStatus])
  refine ⟨⟨fun _ => keepsCompleted_of_open hKeys hOpen, ?_⟩, fun _ => ⟨step_of_commit hCommit, ?_⟩⟩
  · rintro e' r' maxAttempts' claim ⟨⟩ ⟨⟩
    exact ⟨hFree₁, receipt, hReceipt, hStatus⟩
  · exact fun _ => ⟨hCommit.2.eventOf.mpr hEvent₁, present_iff.mpr ⟨receipt, hReceipt⟩⟩

theorem closes_exhausted {maxAttempts : Nat} {old receipt : JobReceipt} {report : Report} (hEvent : EventOf s.rows e r)
    (hOwner : s.owner (.jobReceipt e) = some i) (hRow : s.rows.row (.jobReceipt e) = some old)
    (hFailed : old.status = .failed) (hReceipt : receipt.status = .deadLetter) (hReport : report.status = .failed)
    (hWrites : writes = [set (.jobReceipt e) receipt, set (.report r) report]) :
    deliveries.Closes i (failsInTime late i) (verdicts late (.processReportEvent ⟨1, some e, some r⟩ maxAttempts)) start
      (.claim .deadLetter) (fun s => Claim.deadLetter = .claimed → Claimed s e r) writes s := by
  subst hWrites
  intro s₁ hSince _
  have hEvent₁ : EventOf s₁.rows e r := hSince.rely.eventOf.mpr hEvent
  have hRow₁ : s₁.rows.row (.jobReceipt e) = some old := (hSince.rows hOwner).trans hRow
  have hOpen : ¬ReportIs s₁.rows r .completed := by
    rw [hSince.inv.agree hEvent₁, ReceiptIs, hRow₁]
    simp [hFailed]
  have hKeys : ∀ change ∈ [set (.jobReceipt e) receipt, set (.report r) report], IsDeliveryWrite e r change := by
    simp [IsDeliveryWrite, set]
  have hCommit := consistent_commit receipt hSince.inv hEvent₁ hKeys (by simp) (by simp [hReceipt])
    (by simp [present]) (by simp [ReportIs, hReport, hReceipt])
  refine ⟨⟨fun _ => keepsCompleted_of_open hKeys hOpen, ?_⟩, fun _ => ⟨step_of_commit hCommit, ?_⟩⟩
  · rintro e' r' maxAttempts' claim ⟨⟩ ⟨⟩
    exact ⟨⟨old, hRow₁, hFailed⟩, ⟨report, by simp, hReport⟩, ⟨receipt, by simp, hReceipt⟩⟩
  · rintro ⟨⟩

section Claims

variable {maxAttempts : Nat}

/-- The operation of a claim can commit at its end, and knows its event where it took the report over. -/
abbrev Deciding (i : ClientId) (late : Prop) (start : Server) (e r : Uuid) (maxAttempts : Nat) :
    Program Claim → List Write → Server → Prop :=
  deliveries.Within i (failsInTime late i) (verdicts late (.processReportEvent ⟨1, some e, some r⟩ maxAttempts)) start
    fun claim => deliveries.Closes i (failsInTime late i)
      (verdicts late (.processReportEvent ⟨1, some e, some r⟩ maxAttempts)) start (.claim claim)
      fun s => claim = .claimed → Claimed s e r

theorem claim_won {receipt : JobReceipt} (hEvent : EventOf s.rows e r) (hOwner : s.owner (.jobReceipt e) = some i)
    (hFree : ∀ receipt : JobReceipt, s.rows.row (.jobReceipt e) = some receipt →
      receipt.isClaimable start.clock maxAttempts = true)
    (hStatus : receipt.status = .processing) (hLease : ∃ expiry, receipt.leaseExpiresAt = some expiry) :
    Deciding i late start e r maxAttempts
      (do let _ ← query (.updateReportProcessing r); return .claimed) [set (.jobReceipt e) receipt] s := by
  refine .query fun s₁ _ outcome hSince _ hRun _ _ => .pure ?_
  have hEvent₁ := hSince.rely.eventOf.mpr hEvent
  have hOwner₁ := hSince.owned hOwner
  have hFree₁ : ∀ receipt : JobReceipt, s₁.rows.row (.jobReceipt e) = some receipt →
      receipt.isClaimable start.clock maxAttempts = true := fun receipt hRow =>
    hFree receipt ((hSince.rows hOwner).symm.trans hRow)
  obtain ⟨report, _, _, rfl⟩ | ⟨_, rfl⟩ := update_spec hRun
  · exact (closes_claimed hEvent₁ hOwner₁ hFree₁ hStatus hLease (.inr ⟨_, rfl, rfl⟩)).since (.lock hSince.inv _)
  · exact (closes_claimed hEvent₁ hOwner₁ hFree₁ hStatus hLease (.inl rfl)).since (.lock hSince.inv _)

theorem claim_lost {receipt : JobReceipt} (hEvent : EventOf s.rows e r) (hOwner : s.owner (.jobReceipt e) = some i)
    (hRow : s.rows.row (.jobReceipt e) = some receipt) (hOut : receipt.isClaimable start.clock maxAttempts = false) :
    Deciding i late start e r maxAttempts
      (do
        let existing ← query (.selectReceiptForUpdate e)
        match existing with
        | some (.completed, _) | some (.deadLetter, _) => return .duplicate
        | some (.failed, attempts) =>
          if maxAttempts ≤ attempts then do
            let _ ← query (.updateReceiptExhausted e)
            let _ ← query (.updateReportExhausted r)
            return .deadLetter
          else throw .jobLeaseActive
        | some (.processing, _) | none => throw .jobLeaseActive) [] s := by
  refine .query fun s₁ existing outcome hSince _ hRun _ hReply => ?_
  have hOwner₁ := hSince.owned hOwner
  have hRow₁ : s₁.rows.row (.jobReceipt e) = some receipt := (hSince.rows hOwner).trans hRow
  have hEvent₁ := hSince.rely.eventOf.mpr hEvent
  obtain ⟨receipt', hRow', _, rfl⟩ | ⟨hNone, rfl⟩ := selectForUpdate_spec hRun
  swap
  · cases hNone receipt hRow₁
  cases hRow₁.symm.trans hRow'
  cases hReply
  have hDuplicate : receipt.status = .completed ∨ receipt.status = .deadLetter →
      Deciding i late start e r maxAttempts (return .duplicate) []
        (s₁.lock i [.jobReceipt e]) := by
    intro hStatus
    refine .pure (closes_nothing ?_ fun _ _ => nofun)
    rintro s₂ e' r' _ claim hSince₂ ⟨⟩ ⟨⟩
    have hRow₂ : s₂.rows.row (.jobReceipt e) = some receipt := (hSince₂.after_lock.rows hOwner₁).trans hRow₁
    exact hStatus.imp (fun h => ⟨receipt, hRow₂, h⟩) fun h => ⟨receipt, hRow₂, h⟩
  have hWaits : receipt.status = .processing ∨ receipt.status = .failed ∧ receipt.attempts < maxAttempts →
      Deciding i late start e r maxAttempts (throw .jobLeaseActive) []
        (s₁.lock i [.jobReceipt e]) := by
    intro hStatus
    refine .throw fun s₂ hSince₂ => waits_rollback rfl ?_
    exact not_waiting ((hSince₂.after_lock.rows hOwner₁).trans hRow₁) hOut hStatus
  cases hStatus : receipt.status with
  | completed => exact hDuplicate (.inl hStatus)
  | deadLetter => exact hDuplicate (.inr hStatus)
  | processing => exact hWaits (.inl hStatus)
  | failed =>
    dsimp only
    split
    · refine .query fun s₂ _ outcome hSince₂ _ hRun₂ _ _ => ?_
      have hRow₂ : s₂.rows.row (.jobReceipt e) = some receipt := (hSince₂.after_lock.rows hOwner₁).trans hRow₁
      have hEvent₂ := hSince₂.rely.eventOf.mpr hEvent₁
      obtain ⟨old, hOld, _, rfl⟩ | ⟨hNone, rfl⟩ := update_spec hRun₂
      swap
      · cases hNone receipt hRow₂
      cases hRow₂.symm.trans hOld
      refine .query fun s₃ _ outcome hSince₃ _ hRun₃ _ _ => .pure ?_
      have hSince₂₃ := hSince₃.after_lock
      have hEvent₃ := hSince₂₃.rely.eventOf.mpr hEvent₂
      obtain ⟨report, _, _, rfl⟩ | ⟨hNone, rfl⟩ := update_spec hRun₃
      swap
      · obtain ⟨report, hReport⟩ := present_iff.mp (hSince₃.inv.stored hEvent₃)
        cases hNone report (by simpa [lockRow] using hReport)
      have hOwner₃ := hSince₂₃.owned (hSince₂.after_lock.owned hOwner₁)
      have hRow₃ := (hSince₂₃.rows (hSince₂.after_lock.owned hOwner₁)).trans hRow₂
      exact (closes_exhausted hEvent₃ hOwner₃ hRow₃ hStatus rfl rfl rfl).since (.lock hSince₃.inv _)
    · exact hWaits (.inr ⟨hStatus, Nat.lt_of_not_le ‹_›⟩)

theorem claim_within :
    Deciding i late start e r maxAttempts (claimReport e r maxAttempts) [] start := by
  unfold claimReport
  refine .query fun s₁ aggregate outcome hSince₁ _ hRun₁ _ hReply₁ => ?_
  obtain ⟨event, hEvent, _, rfl⟩ | ⟨hNone, rfl⟩ := selectForUpdate_spec hRun₁
  · cases hReply₁
    refine .throwIf (fun hne s' hSince => ?_) fun hMatches => ?_
    · rintro e' r' _ ⟨⟩
      refine .inr ?_
      rintro ⟨event', hRow, rfl⟩
      rw [hSince.rows (owner_lock_of_mem List.mem_cons_self)] at hRow
      cases hEvent.symm.trans hRow
      exact hne rfl
    · have hEventOf : EventOf s₁.rows e r := ⟨event, hEvent, by simpa using hMatches⟩
      refine .query fun s₂ upserted outcome hSince₂ _ hRun₂ _ hReply₂ => ?_
      have hEventOf₂ := hSince₂.rely.eventOf.mpr hEventOf
      obtain ⟨rfl, hFree, receipt, hStatus, hLease, rfl⟩ | ⟨rfl, receipt, hRow, hOut, rfl⟩ :=
        upsertReceipt_spec hRun₂ hReply₂
      · exact claim_won hEventOf₂ (owner_lock_of_mem List.mem_cons_self) hFree hStatus ⟨_, hLease⟩
      · exact claim_lost hEventOf₂ (owner_lock_of_mem List.mem_cons_self) hRow hOut
  · cases hReply₁
    refine .throwIf (fun _ s' hSince => ?_) fun hMatches => absurd nofun hMatches
    rintro e' r' _ ⟨⟩
    refine .inr fun hEvent => ?_
    obtain ⟨event, hRow, _⟩ := hSince.rely.eventOf.mp hEvent
    cases hNone event hRow

end Claims

/-! ### The work -/

def AddsResults (writes writes' : List Write) : Prop :=
  ∃ more, writes' = writes ++ more ∧ ∀ change ∈ more, ∃ a b, change.key = .scenarioResult a b

theorem AddsResults.refl (writes : List Write) : AddsResults writes writes := ⟨[], by simp, nofun⟩

theorem AddsResults.trans {writes₁ writes₂ writes₃ : List Write} (h : AddsResults writes₁ writes₂)
    (h' : AddsResults writes₂ writes₃) : AddsResults writes₁ writes₃ := by
  obtain ⟨more, rfl, hMore⟩ := h
  obtain ⟨rest, rfl, hRest⟩ := h'
  refine ⟨more ++ rest, by simp, fun change hMem => ?_⟩
  rcases List.mem_append.mp hMem with hMem | hMem
  · exact hMore change hMem
  · exact hRest change hMem

theorem AddsResults.row {writes' : List Write} {db : Db} {k : Key} (h : AddsResults writes writes')
    (hk : ∀ a b, k ≠ .scenarioResult a b) : (db.apply writes').row k = (db.apply writes).row k := by
  obtain ⟨more, rfl, hMore⟩ := h
  rw [Rows.apply_append]
  refine Rows.apply_of_unwritten fun change hMem hKey => ?_
  obtain ⟨a, b, hResult⟩ := hMore change hMem
  exact hk a b (hKey.symm.trans hResult)

theorem upsertScenarioResult_spec {db : Db} {now : Nat} {a b : Uuid} {status : ResultStatus} {result : Json}
    {outcome : Result Unit} {u : Unit} (h : upsertScenarioResult db now a b status result = outcome)
    (hReply : outcome.reply = .ok u) : AddsResults writes (writes ++ outcome.writes) := by
  subst h
  refine ⟨_, rfl, ?_⟩
  unfold upsertScenarioResult at hReply ⊢
  split at hReply
  · split at hReply
    · cases hReply
    · simp_all [write, set]
  · cases hReply

theorem runScenario_within {payload : Json} {scenario : Uuid × Json} (hInv : Consistent s.rows) :
    deliveries.Within i (failsInTime late i) (verdicts late call) start
      (fun _ writes' s' => AddsResults writes writes' ∧ deliveries.Since i s s') (runScenario r payload scenario)
      writes s := by
  unfold runScenario
  split
  · refine .last fun s₁ _ outcome hSince _ hRun _ hReply => ?_
    exact ⟨upsertScenarioResult_spec hRun hReply, hSince.trans (.lock hSince.inv _)⟩
  · exact .pure ⟨.refl writes, .refl hInv⟩
  · refine .last fun s₁ _ outcome hSince _ hRun _ hReply => ?_
    exact ⟨upsertScenarioResult_spec hRun hReply, hSince.trans (.lock hSince.inv _)⟩

theorem runScenarios_within {payload : Json} (scenarios : List (Uuid × Json)) (hInv : Consistent s.rows) :
    deliveries.Within i (failsInTime late i) (verdicts late call) start
      (fun _ writes' s' => AddsResults writes writes' ∧ deliveries.Since i s s') (runScenarios r payload scenarios)
      writes s := by
  induction scenarios generalizing writes s with
  | nil => exact .pure ⟨.refl writes, .refl hInv⟩
  | cons scenario rest ih =>
    refine (runScenario_within hInv).bind fun _ writes' s' ⟨hAdds, hSince⟩ => ?_
    refine (ih hSince.inv).mono fun _ writes'' s'' ⟨hRest, hSince'⟩ => ?_
    exact ⟨hAdds.trans hRest, hSince.trans hSince'⟩

theorem closes_completed {more : List Write} {receipt : JobReceipt} {report : Report} (hKnown : Claimed s e r)
    (hMore : AddsResults [] more) (hOwner : s.owner (.report r) = some i)
    (hProcessing : ReportIs s.rows r .processing) (hReceipt : receipt.status = .completed)
    (hReport : report.status = .completed)
    (hWrites : writes = more ++ [set (.report r) report] ++ [set (.jobReceipt e) receipt]) :
    deliveries.Closes i (failsInTime late i) (verdicts late call) start .plain (fun s => Claimed s e r) writes s := by
  intro s₁ hSince _
  have hEvent₁ : EventOf s₁.rows e r := hSince.rely.eventOf.mpr hKnown.1
  have hOpen : ¬ReportIs s₁.rows r .completed := by
    obtain ⟨old, hOld, hStatus⟩ := hProcessing
    rw [ReportIs, hSince.rows hOwner, hOld]
    simp [hStatus]
  have hKeys : ∀ change ∈ writes, IsDeliveryWrite e r change := by
    intro change hMem
    obtain ⟨added, rfl, hAdded⟩ := hMore
    rw [hWrites] at hMem
    rcases List.mem_append.mp hMem with hMem | hMem
    · rcases List.mem_append.mp hMem with hMem | hMem
      · exact .inr (.inr (hAdded change (by simpa using hMem)))
      · exact .inr (.inl (by rw [List.mem_singleton.mp hMem]; rfl))
    · exact .inl (by rw [List.mem_singleton.mp hMem]; rfl)
  have hAfter : s₁.rows.apply writes = ((s₁.rows.apply more).put (set (.report r) report)).put (set (.jobReceipt e) receipt) := by
    rw [hWrites, Rows.apply_concat, Rows.apply_concat]
  have hCommit := consistent_commit receipt hSince.inv hEvent₁ hKeys (by rw [hAfter]; simp)
    (by simp [hReceipt]) (by rw [hAfter]; simp [present]) (by rw [hAfter]; simp [ReportIs, hReport, hReceipt])
  refine ⟨⟨fun _ => keepsCompleted_of_open hKeys hOpen, ?_⟩,
    fun _ => ⟨step_of_commit hCommit, hCommit.2.eventOf.mpr hEvent₁, hCommit.2.receipts e (hKnown.2 |> hSince.rely.receipts e)⟩⟩
  rintro _ _ _ _ _ ⟨⟩

theorem work_within (hKnown : Claimed start e r) {maxAttempts : Nat} :
    deliveries.Within i (failsInTime late i) (verdicts late (.processReportEvent ⟨1, some e, some r⟩ maxAttempts)) start
      (fun _ => deliveries.Closes i (failsInTime late i)
        (verdicts late (.processReportEvent ⟨1, some e, some r⟩ maxAttempts)) start .plain fun s => Claimed s e r)
      (processReport e r) [] start := by
  unfold processReport
  refine .query fun s₁ record outcome hSince₁ _ hRun₁ _ hReply₁ => ?_
  obtain ⟨report, hReport, hStatus, rfl⟩ | ⟨_, rfl⟩ := selectForUpdate_spec hRun₁
  · cases hReply₁
    have hKnown₁ : Claimed s₁ e r := hKnown.later hSince₁.later
    refine .query fun s₂ scenarios outcome hSince₂ _ hRun₂ _ hReply₂ => ?_
    cases hRun₂
    refine (runScenarios_within scenarios (hSince₂.trans (.lock hSince₂.inv _)).inv).bind fun _ more s₃ ⟨hMore, hSince₃⟩ => ?_
    have hSince₁₃ := hSince₂.trans hSince₃.after_lock
    have hOwner₃ : s₃.owner (.report r) = some i := hSince₁₃.owned (owner_lock_of_mem List.mem_cons_self)
    have hRow₃ : s₃.rows.row (.report r) = some report :=
      (hSince₁₃.rows (owner_lock_of_mem List.mem_cons_self)).trans hReport
    refine .query fun s₄ _ outcome hSince₄ _ hRun₄ _ _ => ?_
    have hRow₄ : s₄.rows.row (.report r) = some report := (hSince₄.rows hOwner₃).trans hRow₃
    obtain ⟨old, hOld, _, rfl⟩ | ⟨hNone, rfl⟩ := update_spec hRun₄
    swap
    · have hView : (s₄.rows.apply more).row (.report r) = s₄.rows.row (.report r) := hMore.row nofun
      cases hNone report (hView.trans hRow₄)
    have hKnown₄ : Claimed s₄ e r := (hKnown₁.later hSince₁₃.after_lock.later).later hSince₄.later
    refine .query fun s₅ _ outcome hSince₅ _ hRun₅ _ _ => .pure ?_
    have hSince₄₅ := hSince₅.after_lock
    have hKnown₅ : Claimed s₅ e r := hKnown₄.later hSince₄₅.later
    obtain ⟨receipt, _, _, rfl⟩ | ⟨hNone, rfl⟩ := update_spec hRun₅
    swap
    · obtain ⟨receipt, hReceipt⟩ := present_iff.mp hKnown₅.2
      have hView : (s₅.rows.apply more).row (.jobReceipt e) = s₅.rows.row (.jobReceipt e) := hMore.row nofun
      refine absurd (hNone receipt ?_) nofun
      rw [Rows.apply_concat]
      simpa using hView.trans hReceipt
    have hOwner₅ := hSince₄₅.owned (hSince₄.owned hOwner₃)
    have hRow₅ := (hSince₄₅.rows (hSince₄.owned hOwner₃)).trans hRow₄
    exact (closes_completed hKnown₅ hMore hOwner₅ ⟨report, hRow₅, by simpa using hStatus⟩ rfl rfl rfl).since
      (.lock hSince₅.inv _)
  · cases hReply₁
    refine .throw fun s' _ => ?_
    rintro e' r' _ ⟨⟩
    exact .inl rfl

/-! ### The failure -/

theorem closes_failed {receipt : JobReceipt} {report : Report} (hKnown : Claimed s e r)
    (hOwner : s.owner (.report r) = some i) (hInTime : late → ¬ReportIs s.rows r .completed)
    (hReceipt : receipt.status ≠ .completed) (hLease : receipt.status ≠ .processing) (hReport : report.status ≠ .completed)
    (hWrites : writes = [set (.report r) report, set (.jobReceipt e) receipt]) :
    deliveries.Closes i (failsInTime late i) (verdicts late call) start .plain (fun _ => True) writes s := by
  subst hWrites
  intro s₁ hSince _
  have hEvent₁ : EventOf s₁.rows e r := hSince.rely.eventOf.mpr hKnown.1
  have hKeys : ∀ change ∈ [set (.report r) report, set (.jobReceipt e) receipt], IsDeliveryWrite e r change := by
    simp [IsDeliveryWrite, set]
  have hCommit := consistent_commit receipt hSince.inv hEvent₁ hKeys (by simp) (fun h => absurd h hLease)
    (by simp [present]) (by simp [ReportIs, hReport, hReceipt])
  refine ⟨⟨fun hLate => keepsCompleted_of_open hKeys ?_, ?_⟩, fun _ => ⟨step_of_commit hCommit, trivial⟩⟩
  · rw [ReportIs, hSince.rows hOwner]
    exact hInTime hLate
  · rintro _ _ _ _ _ ⟨⟩

theorem fail_within (hKnown : Claimed start e r) {deadLetter : Bool} {failureCode : String} :
    deliveries.Within i (failsInTime late i) (verdicts late call) start
      (fun _ => deliveries.Closes i (failsInTime late i) (verdicts late call) start .plain fun _ => True)
      (failReport e r deadLetter failureCode) [] start := by
  unfold failReport
  refine .query fun s₁ _ outcome hSince₁ hGuard₁ hRun₁ _ _ => ?_
  have hKnown₁ : Claimed s₁ e r := hKnown.later hSince₁.later
  obtain ⟨report, _, _, rfl⟩ | ⟨hNone, rfl⟩ := update_spec hRun₁
  swap
  · obtain ⟨report, hReport⟩ := present_iff.mp (hSince₁.inv.stored hKnown₁.1)
    cases hNone report hReport
  refine .query fun s₂ _ outcome hSince₂ _ hRun₂ _ _ => .pure ?_
  have hKnown₂ : Claimed s₂ e r := hKnown₁.later hSince₂.after_lock.later
  have hOwner₂ : s₂.owner (.report r) = some i := hSince₂.owned (owner_lock_of_mem List.mem_cons_self)
  have hInTime : late → ¬ReportIs s₂.rows r .completed := by
    intro hLate
    rw [ReportIs, hSince₂.rows (owner_lock_of_mem List.mem_cons_self)]
    exact hGuard₁ hLate
  obtain ⟨receipt, _, _, rfl⟩ | ⟨hNone, rfl⟩ := update_spec hRun₂
  swap
  · obtain ⟨receipt, hReceipt⟩ := present_iff.mp hKnown₂.2
    cases hNone receipt (by simpa using hReceipt)
  refine (closes_failed hKnown₂ hOwner₂ hInTime ?_ ?_ ?_ rfl).since (.lock hSince₂.inv _)
  all_goals cases deadLetter <;> simp

end Transactions

/-! ## A delivery -/

section Delivery

variable {i : ClientId} {late : Prop} {s : Server} {e r : Uuid} {maxAttempts : Nat} {call : Call}

theorem attempts_secure (hKnown : Claimed s e r) :
    deliveries.Secure i (failsInTime late i) (verdicts late call)
      (fun result t s => t = none ∧ ∀ a, result = .ok a → Claimed s e r) (receiptAttempts e) none s := by
  refine .bind (secure_transaction (fun s₁ hLater => ?_) fun _ _ _ => ⟨rfl, fun _ h => nomatch h⟩)
  refine .last fun s₂ _ outcome hSince _ hRun _ _ => ?_
  cases hRun
  refine (closes_nothing (by rintro _ _ _ _ _ _ _ ⟨⟩) fun s₃ hLast => ?_).since (.lock hSince.inv _)
  exact ⟨⟨rfl, fun _ _ => (((hKnown.later hLater).later hSince.later).later hLast)⟩, fun _ _ _ => ⟨rfl, fun _ h => nomatch h⟩⟩

theorem failure_secure (hKnown : Claimed s e r) (error : Failure) :
    deliveries.Secure i (failsInTime late i) (verdicts late call) (fun _ _ _ => True)
      (recordFailure e r maxAttempts error) none s := by
  refine .bind ((attempts_secure hKnown).mono fun result t s ⟨hNone, hOk⟩ => ?_)
  cases result with
  | error e => trivial
  | ok attempts =>
    subst hNone
    refine .bind (Secure.mono (Q := fun _ _ _ => True)
      (secure_transaction (fun s₁ hLater => ?_) fun _ _ _ => trivial) fun result t s _ => ?_)
    · refine (fail_within ((hOk attempts rfl).later hLater)).mono fun _ writes s₂ hClosed s₃ hSince hGuard => ?_
      obtain ⟨hAt, hStep⟩ := hClosed s₃ hSince hGuard
      exact ⟨hAt, fun hDeferred => ⟨(hStep hDeferred).1, trivial, fun _ _ _ => trivial⟩⟩
    · cases result with
      | error e => trivial
      | ok a =>
        dsimp only
        split
        · exact True.intro
        · exact True.intro

theorem work_secure (hKnown : Claimed s e r) :
    deliveries.Secure i (failsInTime late i) (verdicts late (.processReportEvent ⟨1, some e, some r⟩ maxAttempts))
      (fun _ _ _ => True) (workOn e r maxAttempts) none s := by
  refine .tryCatch (.bind (Secure.mono (Q := fun _ t s => t = none ∧ Claimed s e r)
    (secure_transaction (fun s₁ hLater => ?_) fun _ s₁ hLater => ⟨rfl, hKnown.later hLater⟩)
    fun result t s ⟨hNone, hKnown⟩ => ?_))
  · refine (work_within (hKnown.later hLater)).mono fun _ writes s₂ hClosed s₃ hSince hGuard => ?_
    obtain ⟨hAt, hStep⟩ := hClosed s₃ hSince hGuard
    refine ⟨hAt, fun hDeferred => ?_⟩
    obtain ⟨hKeeps, hDone⟩ := hStep hDeferred
    exact ⟨hKeeps, ⟨rfl, hDone⟩, fun _ s₄ hLast => ⟨rfl, hDone.later hLast⟩⟩
  · cases result with
    | ok a => trivial
    | error problem =>
      subst hNone
      exact failure_secure hKnown problem

theorem delivery_secure (event : ReportEvent) :
    deliveries.Secure i (failsInTime late i) (verdicts late (.processReportEvent event maxAttempts))
      (fun _ _ _ => True) (Call.processReportEvent event maxAttempts).program none s := by
  refine .bind (Secure.mono (Q := fun _ _ _ => True) ?_ fun result t s _ => ?_)
  · obtain ⟨version, eventId, reportId⟩ := event
    unfold processReportEvent
    split
    · rename_i e r hVersion hEvent hReport
      cases hVersion
      cases hEvent
      cases hReport
      refine .bind (Secure.mono (Q := fun result t s => ∀ claim, result = .ok claim →
        t = none ∧ (claim = .claimed → Claimed s e r))
        (secure_transaction (fun s₁ hLater => ?_) (by rintro _ _ _ _ ⟨⟩)) fun result t s hResult => ?_)
      · refine claim_within.mono fun claim writes s₂ hClosed s₃ hSince hGuard => ?_
        obtain ⟨hAt, hStep⟩ := hClosed s₃ hSince hGuard
        refine ⟨hAt, fun hDeferred => ?_⟩
        obtain ⟨hKeeps, hDone⟩ := hStep hDeferred
        refine ⟨hKeeps, ?_, by rintro _ _ _ _ ⟨⟩⟩
        rintro _ ⟨⟩
        exact ⟨rfl, hDone⟩
      · cases result with
        | error problem => trivial
        | ok claim =>
          obtain ⟨rfl, hKnown⟩ := hResult claim rfl
          cases claim with
          | claimed => exact work_secure (hKnown rfl)
          | duplicate => trivial
          | deadLetter => trivial
    · trivial
  · cases result with
    | ok a => trivial
    | error problem => trivial

end Delivery

end GhostApi.Hosted
