import GhostApi.Hosted.Deliveries

/-!
# Runs of deliveries

What holds of reports and receipts in every run of any number of deliveries,
whose workers may be slow, fail or stop anywhere.
-/

namespace GhostApi.Hosted

open Js Sql Sql.Protocol Effect Transition

structure Undelivered (db : Db) : Prop where
  unique : ∀ {e e' r}, EventOf db e r → EventOf db e' r → e = e'
  pending : ∀ {e r}, EventOf db e r → ∃ report : Report, db.row (.report r) = some report ∧ report.status ≠ .completed
  unclaimed : ∀ e, db.row (.jobReceipt e) = none

theorem Undelivered.consistent {db : Db} (h : Undelivered db) : Consistent db where
  unique := h.unique
  stored hEvent := by
    obtain ⟨report, hRow, _⟩ := h.pending hEvent
    exact present_iff.mpr ⟨report, hRow⟩
  agree {e r} hEvent := by
    obtain ⟨report, hRow, hStatus⟩ := h.pending hEvent
    simp [ReportIs, ReceiptIs, h.unclaimed, hRow, hStatus]
  lease hRow _ := nomatch (h.unclaimed _).symm.trans hRow

def IsDelivery : Call → Prop
  | .processReportEvent _ _ => True
  | _ => False

section Runs

variable {initial : Server} {late : Prop} {events later : List Event} {s s' : System} {e r : Uuid}

theorem deliveries_good (h : Consistent initial.rows)
    (run : (service initial).Run (System.Allowed IsDelivery (failsInTime late)) events s) :
    deliveries.Good (failsInTime late) (fun _ => verdicts late) s := by
  refine good_of_run h (fun i call server hCall _ => ?_) run
  cases call with
  | processReportEvent event maxAttempts => exact delivery_secure event
  | _ => cases hCall

theorem kept_of_step {event : Event} (h : deliveries.Good (failsInTime late) (fun _ => verdicts late) s)
    (hAllowed : System.Allowed IsDelivery (failsInTime late) s event)
    (hStep : System.step engine Call.program s event = some s') : Kept s.server.rows s'.server.rows := by
  refine h.rely_step hAllowed hStep (event.client.getD 0 + 1) (fun _ => False) fun i hi => ?_
  rw [hi]
  exact ⟨Nat.succ_ne_self i, fun _ h => h.elim⟩

theorem keepsCompleted_of_step {event : Event} (hLate : late)
    (h : deliveries.Good (failsInTime late) (fun _ => verdicts late) s)
    (hAllowed : System.Allowed IsDelivery (failsInTime late) s event)
    (hStep : System.step engine Call.program s event = some s') : KeepsCompleted s.server.rows s'.server.rows := by
  obtain hSame | ⟨i, choice, client, note, next, t, rfl, hClient, hProgram, hTxn, _, _, hCommit⟩ :=
    System.step_rows hStep
  · rw [hSame]
    exact fun _ => id
  · have hAt := h.at_op hClient hProgram (hAllowed client _ next hClient hProgram)
    rw [hTxn] at hAt
    rw [hCommit]
    exact hAt.1 hLate

theorem kept_of_runs (h : Consistent initial.rows)
    (run : (service initial).Run (System.Allowed IsDelivery (failsInTime late)) events s)
    (rest : ((service initial).resume s).Run (System.Allowed IsDelivery (failsInTime late)) later s') :
    Kept s.server.rows s'.server.rows := by
  induction rest with
  | start => exact .refl _
  | next before allowed taken ih => exact ih.trans (kept_of_step (deliveries_good h (run.append before)) allowed taken)

theorem keepsCompleted_of_runs (hLate : late) (h : Consistent initial.rows)
    (run : (service initial).Run (System.Allowed IsDelivery (failsInTime late)) events s)
    (rest : ((service initial).resume s).Run (System.Allowed IsDelivery (failsInTime late)) later s') :
    KeepsCompleted s.server.rows s'.server.rows := by
  induction rest with
  | start => exact fun _ => id
  | next before allowed taken ih =>
    have hGood := deliveries_good h (run.append before)
    exact fun r hr => keepsCompleted_of_step hLate hGood allowed taken r (ih r hr)

theorem free_delivery (s : System) (event : Event) (h : System.Allowed IsDelivery (fun _ _ _ => True) s event) :
    System.Allowed IsDelivery (failsInTime False) s event := by
  cases event with
  | advance i choice =>
    intro client op next _ _
    unfold failsInTime
    split
    · exact False.elim
    · trivial
  | _ => exact h

end Runs

/-! ### A slow worker -/

theorem oneReport_rows {k : Key} (hReport : k ≠ .report 1) (hEvent : k ≠ .outboxEvent 2) :
    oneReport.rows.row k = none := by
  simp [oneReport, hReport, hEvent, Rows.empty]

theorem undelivered_oneReport : Undelivered oneReport.rows := by
  have hOnly : ∀ {e r}, EventOf oneReport.rows e r → e = 2 ∧ r = 1 := by
    rintro e r ⟨event, hRow, rfl⟩
    by_cases hEvent : e = 2
    · subst hEvent
      simp only [oneReport, Rows.apply_cons, Rows.apply_nil, row_set, Option.some.injEq] at hRow
      subst hRow
      exact ⟨rfl, rfl⟩
    · rw [oneReport_rows (k := .outboxEvent e) nofun (by simp [hEvent])] at hRow
      cases hRow
  constructor
  · intro e e' r h h'
    exact (hOnly h).1.trans (hOnly h').1.symm
  · intro e r h
    obtain ⟨rfl, rfl⟩ := hOnly h
    exact ⟨⟨0, 0, "run", "", .object [], 0, .accepted, none, none⟩, rfl, nofun⟩
  · exact fun e => oneReport_rows nofun nofun

/-- A first worker claims the report; when its lease has expired, a second one claims and completes it. -/
def slowWorker (maxAttempts : Nat) : List Event :=
  .start 0 (.processReportEvent ⟨1, some 2, some 1⟩ maxAttempts) :: advances 0 5 ++ .tick (seconds 300 + 1) ::
    .start 1 (.processReportEvent ⟨1, some 2, some 1⟩ maxAttempts) :: advances 1 11

/-- The first worker finds the report not processable and says so. -/
def slowFailure : List Event := advances 0 10

def statuses (s : System) : Option ReportStatus × Option JobStatus :=
  ((s.server.rows.row (.report 1)).map Report.status, (s.server.rows.row (.jobReceipt 2)).map JobReceipt.status)

theorem reportIs_of_statuses {s : System} {status : ReportStatus} (h : (statuses s).1 = some status) :
    ReportIs s.server.rows 1 status := Option.map_eq_some_iff.mp h

def startsDelivery : System → Event → Bool
  | _, .start _ (.processReportEvent _ _) => true
  | _, .start _ _ => false
  | _, _ => true

theorem allowed_of_startsDelivery (s : System) (event : Event) (h : startsDelivery s event = true) :
    System.Allowed IsDelivery (fun _ _ _ => True) s event := by
  cases event with
  | start i call => cases call <;> trivial
  | advance i choice => exact fun _ _ _ _ _ => trivial
  | _ => trivial

/-- A test for steps of deliveries whose failures come in time. -/
def comesInTime (s : System) (event : Event) : Bool := startsDelivery s event && match event with
  | .advance i _ => match s.client i with
    | some client => match client.program with
      | .call (.query (.updateReportFailed r _ _)) _ => client.txn.all fun t =>
        !((s.server.rows.apply t.writes).row (.report r)).any fun (report : Report) => report.status == .completed
      | _ => true
    | none => true
  | _ => true

theorem allowed_of_comesInTime (s : System) (event : Event) (h : comesInTime s event = true) :
    System.Allowed IsDelivery (failsInTime True) s event := by
  cases event with
  | start i call => cases call <;> trivial
  | advance i choice =>
    intro client op next hClient hProgram
    unfold failsInTime
    split
    · rename_i hTxn
      rintro - ⟨report, hRow, hStatus⟩
      obtain ⟨hOpen, rfl⟩ := Prod.mk.inj hTxn
      simp [comesInTime, hClient, hProgram, hOpen, hRow, hStatus] at h
    · trivial
  | _ => trivial

theorem eventOf_of_run {late : Prop} {events : List Event} {s : System}
    (run : (service oneReport).Run (System.Allowed IsDelivery (failsInTime late)) events s) :
    EventOf s.server.rows 2 1 := by
  have hKept := kept_of_runs undelivered_oneReport.consistent .start (show ((service oneReport).resume _).Run _ _ _ from run)
  exact hKept.eventOf.mpr ⟨⟨1, ⟨1, some 2, some 1⟩, 0, 0, .pending, none, none, none, 0, none⟩, rfl, rfl⟩

section Runs

variable {initial : Server} {events : List Event} {s : System} {e r : Uuid}

/-! ### What a delivery answers -/

inductive Verdict
  | claim (claim : Claim)
  | waits
  | throws
  deriving DecidableEq

/-- The verdict with which a transaction ends; none where a statement has failed or it is not that of a claim. -/
def verdictOf : Op Query External Note Failure → Option Verdict
  | .commit (.claim claim) => some (.claim claim)
  | .rollback .jobLeaseActive => some .waits
  | .rollback (.database _) => none
  | .rollback cause => if cause = .error "report_not_processable" then none else some .throws
  | _ => none

def IsLeased (db : Db) (now : Nat) (e : Uuid) : Prop :=
  ∃ (receipt : JobReceipt) (expiry : Nat), db.row (.jobReceipt e) = some receipt ∧ receipt.status = .processing ∧
    receipt.leaseExpiresAt = some expiry ∧ now ≤ expiry

/-- A delivery waits for a lease that is held; otherwise it claims the report, finds it settled or settles it. -/
def IsRight (db after : Db) (now : Nat) (e r : Uuid) : Verdict → Prop
  | .claim .claimed => ¬IsLeased db now e ∧ ReceiptIs after e .processing
  | .claim .duplicate => ReceiptIs db e .completed ∨ ReceiptIs db e .deadLetter
  | .claim .deadLetter => ReportIs after r .failed ∧ ReceiptIs after e .deadLetter
  | .waits => IsLeased db now e
  | .throws => False

/-- A worker stopped in the last attempt and its lease has expired. -/
def Stuck (db : Db) (now maxAttempts : Nat) (e : Uuid) : Prop :=
  ∃ (receipt : JobReceipt) (expiry : Nat), db.row (.jobReceipt e) = some receipt ∧ receipt.status = .processing ∧
    receipt.leaseExpiresAt = some expiry ∧ expiry < now ∧ maxAttempts ≤ receipt.attempts

section Verdicts

variable {db after : Db} {now maxAttempts : Nat}

theorem not_stuck_of_receiptIs {status : JobStatus} (h : ReceiptIs db e status) (hStatus : status ≠ .processing) :
    ¬Stuck db now maxAttempts e := by
  obtain ⟨receipt, hRow, rfl⟩ := h
  rintro ⟨other, _, hOther, hProcessing, _⟩
  cases hRow.symm.trans hOther
  exact hStatus hProcessing

theorem isRight_of_answers {claim : Claim} (h : Answers db after now maxAttempts e r claim) :
    IsRight db after now e r (.claim claim) ∧ ¬Stuck db now maxAttempts e := by
  cases claim with
  | claimed =>
    obtain ⟨hFree, hProcessing⟩ := h
    refine ⟨⟨?_, hProcessing⟩, ?_⟩
    · rintro ⟨receipt, expiry, hRow, hStatus, hLease, hHeld⟩
      have hClaimable := hFree receipt hRow
      simp [JobReceipt.isClaimable, hStatus, hLease, Nat.not_lt.mpr hHeld] at hClaimable
    · rintro ⟨receipt, expiry, hRow, hStatus, hLease, _, hAttempts⟩
      have hClaimable := hFree receipt hRow
      simp [JobReceipt.isClaimable, Nat.not_lt.mpr hAttempts] at hClaimable
  | duplicate =>
    exact ⟨h, h.elim (not_stuck_of_receiptIs · (by decide)) (not_stuck_of_receiptIs · (by decide))⟩
  | deadLetter => exact ⟨h.2, not_stuck_of_receiptIs h.1 (by decide)⟩

theorem isLeased_iff_of_waits (hDb : Consistent db) (h : Waits db now maxAttempts e) :
    IsLeased db now e ↔ ¬Stuck db now maxAttempts e := by
  obtain ⟨receipt, hRow, hStatus, hOut⟩ := h
  obtain ⟨expiry, hLease⟩ := hDb.lease hRow hStatus
  have hHeld : IsLeased db now e ↔ now ≤ expiry := by
    constructor
    · rintro ⟨other, _, hOther, _, hExpiry, hHeld⟩
      cases hRow.symm.trans hOther
      cases hLease.symm.trans hExpiry
      exact hHeld
    · exact fun hHeld => ⟨receipt, expiry, hRow, hStatus, hLease, hHeld⟩
  have hStuck : Stuck db now maxAttempts e ↔ expiry < now ∧ maxAttempts ≤ receipt.attempts := by
    constructor
    · rintro ⟨other, _, hOther, _, hExpiry, hExpired, hAttempts⟩
      cases hRow.symm.trans hOther
      cases hLease.symm.trans hExpiry
      exact ⟨hExpired, hAttempts⟩
    · exact fun ⟨hExpired, hAttempts⟩ => ⟨receipt, expiry, hRow, hStatus, hLease, hExpired, hAttempts⟩
  rw [hHeld, hStuck]
  simp only [JobReceipt.isClaimable, hStatus, hLease, Option.any_some] at hOut
  simp at hOut
  omega

end Verdicts

/-- At every end of a claim in a run of deliveries, the verdict is right exactly where the receipt is not stuck. -/
theorem verdict_right_iff (h : Undelivered initial.rows)
    (run : (service initial).Run (System.Allowed IsDelivery fun _ _ _ => True) events s) {i : ClientId}
    {maxAttempts : Nat} {t : Transaction Row} {op : Op Query External Note Failure}
    {next : Except Failure (op.Result Reply Answer) → Program Unit} {verdict : Verdict}
    (hClient : s.client i = some ⟨.processReportEvent ⟨1, some e, some r⟩ maxAttempts, some t, .call op next⟩)
    (hEvent : EventOf s.server.rows e r) (hVerdict : verdictOf op = some verdict) :
    IsRight s.server.rows (s.server.rows.apply t.writes) t.now e r verdict ↔
      ¬Stuck s.server.rows t.now maxAttempts e := by
  have hGood := deliveries_good h.consistent (run.mono free_delivery)
  have hFree : failsInTime False i op (some t, s.server) := by
    unfold failsInTime
    split
    · exact False.elim
    · trivial
  have hAt := hGood.at_op hClient rfl hFree
  cases op with
  | commit note =>
    cases note with
    | claim claim =>
      cases hVerdict
      obtain ⟨hRight, hNot⟩ := isRight_of_answers (hAt.2 e r maxAttempts claim rfl rfl)
      exact iff_of_true hRight hNot
    | _ => cases hVerdict
  | rollback cause =>
    have hRollback := hAt e r maxAttempts rfl
    cases cause with
    | jobLeaseActive =>
      cases hVerdict
      obtain ⟨_, ⟨⟩, hWaits⟩ := hRollback
      exact isLeased_iff_of_waits hGood.inv hWaits
    | database problem => cases hVerdict
    | _ =>
      exfalso
      rcases hRollback with hCause | hNot
      · simp [verdictOf, hCause] at hVerdict
      · exact hNot hEvent
  | _ => cases hVerdict

end Runs

/-! ### A worker that stopped -/

/-- Where a delivery stands: its event and its attempts, the start of its transaction, its verdict and the lease of
the receipt. -/
def verdictAt (s : System) (i : ClientId) : Option ((ReportEvent × Nat) × Nat × Verdict × Option (Option Nat)) :=
  (s.client i).bind fun client => match client.call, client.txn, client.program with
    | .processReportEvent event maxAttempts, some t, .call op _ => (verdictOf op).map fun verdict =>
      ((event, maxAttempts), t.now, verdict, (s.server.rows.row (.jobReceipt 2)).map JobReceipt.leaseExpiresAt)
    | _, _, _ => none

theorem stands_of_verdictAt {s : System} {i : ClientId} {event : ReportEvent} {maxAttempts now : Nat}
    {verdict : Verdict} {lease : Option (Option Nat)}
    (h : verdictAt s i = some ((event, maxAttempts), now, verdict, lease)) :
    ∃ (t : Transaction Row) (op : Op Query External Note Failure)
      (next : Except Failure (op.Result Reply Answer) → Program Unit),
      s.client i = some ⟨.processReportEvent event maxAttempts, some t, .call op next⟩ ∧ t.now = now ∧
        verdictOf op = some verdict ∧ (s.server.rows.row (.jobReceipt 2)).map JobReceipt.leaseExpiresAt = lease := by
  obtain ⟨⟨call, txn, program⟩, hClient, h⟩ := Option.bind_eq_some_iff.mp h
  dsimp only at h
  split at h
  · rename_i op next
    obtain ⟨_, hVerdict, hSame⟩ := Option.map_eq_some_iff.mp h
    cases hSame
    exact ⟨_, op, next, hClient, rfl, hVerdict, rfl⟩
  · cases h

theorem stands_of_exec (es : List Event) (i : ClientId) {event : ReportEvent} {maxAttempts now : Nat}
    {verdict : Verdict} {lease : Option (Option Nat)}
    (h : ((service oneReport).execIf startsDelivery (service oneReport).initial es).bind (verdictAt · i) =
      some ((event, maxAttempts), now, verdict, lease)) :
    ∃ (s : System) (t : Transaction Row) (op : Op Query External Note Failure)
      (next : Except Failure (op.Result Reply Answer) → Program Unit),
      (service oneReport).Run (System.Allowed IsDelivery fun _ _ _ => True) es s ∧ EventOf s.server.rows 2 1 ∧
        s.client i = some ⟨.processReportEvent event maxAttempts, some t, .call op next⟩ ∧ t.now = now ∧
        verdictOf op = some verdict ∧ (s.server.rows.row (.jobReceipt 2)).map JobReceipt.leaseExpiresAt = lease := by
  obtain ⟨s, hExec, hStands⟩ := Option.bind_eq_some_iff.mp h
  obtain ⟨t, op, next, hClient⟩ := stands_of_verdictAt hStands
  have hRun := Machine.Run.start.execIf allowed_of_startsDelivery hExec
  exact ⟨s, t, op, next, hRun, eventOf_of_run (hRun.mono free_delivery), hClient⟩

theorem verdict_right_of_first : ∃ (s : System) (t : Transaction Row),
    (service oneReport).Run (System.Allowed IsDelivery fun _ _ _ => True)
      (.start 0 (.processReportEvent ⟨1, some 2, some 1⟩ 3) :: advances 0 4) s ∧
    (IsRight s.server.rows (s.server.rows.apply t.writes) t.now 2 1 (.claim .claimed) ↔
      ¬Stuck s.server.rows t.now 3 2) := by
  obtain ⟨s, t, op, next, hRun, hEvent, hClient, _, hVerdict, _⟩ := stands_of_exec
    (.start 0 (.processReportEvent ⟨1, some 2, some 1⟩ 3) :: advances 0 4) 0
    (show _ = some ((⟨1, some 2, some 1⟩, 3), 0, .claim .claimed, none) by decide +kernel)
  exact ⟨s, t, hRun, verdict_right_iff undelivered_oneReport hRun hClient hEvent hVerdict⟩

/-- The worker of the only attempt stops, and its lease expires. -/
def stoppedWorker : List Event :=
  .start 0 (.processReportEvent ⟨1, some 2, some 1⟩ 1) :: advances 0 5 ++ .stop 0 :: .tick (seconds 300 + 1) ::
    .start 1 (.processReportEvent ⟨1, some 2, some 1⟩ 1) :: advances 1 4

/-- A second delivery then waits for a lease that nobody holds. -/
theorem not_verdict_right : ¬∀ (initial : Server) (events : List Event) (s : System) (i : ClientId) (e r : Uuid)
    (maxAttempts : Nat) (t : Transaction Row) (op : Op Query External Note Failure)
    (next : Except Failure (op.Result Reply Answer) → Program Unit) (verdict : Verdict), Undelivered initial.rows →
    (service initial).Run (System.Allowed IsDelivery fun _ _ _ => True) events s →
    s.client i = some ⟨.processReportEvent ⟨1, some e, some r⟩ maxAttempts, some t, .call op next⟩ →
    EventOf s.server.rows e r → verdictOf op = some verdict →
    IsRight s.server.rows (s.server.rows.apply t.writes) t.now e r verdict := by
  intro hClaim
  obtain ⟨s, t, op, next, hRun, hEvent, hClient, hNow, hVerdict, hLease⟩ := stands_of_exec stoppedWorker 1
    (show _ = some ((⟨1, some 2, some 1⟩, 1), 300001, .waits, some (some 300000)) by decide +kernel)
  obtain ⟨receipt, expiry, hRow, _, hExpiry, hHeld⟩ :=
    hClaim _ _ _ _ _ _ _ _ _ _ _ undelivered_oneReport hRun hClient hEvent hVerdict
  simp only [hRow, Option.map_some, hExpiry, Option.some.injEq] at hLease
  omega

end GhostApi.Hosted
