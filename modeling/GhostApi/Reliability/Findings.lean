import GhostApi.Ledger.Returned
import GhostApi.Reliability.Coverage

/-!
# What the findings say

A run opens a finding for a drifted or unknown action unless there is an open
one with its action hash. Whose finding that is, and what it says, is not
looked at.
-/

namespace GhostApi.Reliability

open Js Json Security Validation Effect Effect.Mutation Storage Transition Actions Ledger
open Safety (printable_zero)

/-! ## Resolutions -/

def evidence (value : JsValue) (label : String) : Except JsError (Text 128) := match value with
  | .string s => if h : acceptsText 128 s = true then .ok ⟨trim s, acceptsText_trim h⟩
    else .error (refuse (label ++ " must be a bounded non-secret reference."))
  | _ => .error (refuse (label ++ " must be a bounded non-secret reference."))

structure ResolveInput where
  authenticate : Except JsError JsValue
  findingId : JsValue
  reason : JsValue
  now : Option Int

def findFinding (state : ReconciliationState) (findingId : Identifier) : Except JsError ReconciliationFinding :=
  match state.findings.find? (·.findingId = findingId) with
  | some finding => .ok finding
  | none => .error (refuse "Reconciliation finding was not found.")

/-- The finding with a resolution, in the place of the old one. -/
def resolveOp (classification : FindingClassification) (wrong : String) (findingId resolvedBy : Identifier)
    (reason : Text 300) (evidenceRef : Option (Text 128)) (clock : Option Int) :
    Mutation ReconciliationState JsError ReconciliationFinding := do
  let finding ← findFinding (← get) findingId
  throwIf (finding.classification ≠ classification) (refuse wrong)
  throwIf (finding.resolution.isSome = true) (refuse "Reconciliation finding is already resolved.")
  let now ← format.timestamp clock
  let resolvedAt ← timestamp refuse (.string (Date.toISOString now)) "Reconciliation resolution time"
  let resolved := { finding with resolution := some ⟨resolvedAt, resolvedBy, reason, evidenceRef⟩ }
  modify fun state => { state with
    findings := state.findings.map fun other => if other.findingId = findingId then resolved else other }
  return resolved

/-- An operator, a finding and a reason, before the evidence of a resolution is looked at. -/
def resolveArguments (input : ResolveInput) : Except JsError (Identifier × Identifier × Text 300) := do
  let operator ← validateOperator (← input.authenticate)
  failIf (ReconciliationOperatorPermission.manage ∉ operator.permissions)
    (refuse "Reconciliation operator lacks required permission: reconciliation.manage.")
  let findingId ← identifier refuse input.findingId "Reconciliation finding id"
  let reason ← text refuse input.reason "Reconciliation resolution reason" 300
  return (operator.principalId, findingId, reason)

def resolveDrift (input : ResolveInput) (store : Option ReconciliationState) :
    Except JsError (ReconciliationFinding × ReconciliationState) := do
  let (resolvedBy, findingId, reason) ← resolveArguments input
  format.update (resolveOp .drifted "Only drifted findings can be resolved with a drift resolution reason." findingId
    resolvedBy reason none input.now) store

def resolveUnknown (input : ResolveInput) (evidenceRef : JsValue) (store : Option ReconciliationState) :
    Except JsError (ReconciliationFinding × ReconciliationState) := do
  let (resolvedBy, findingId, reason) ← resolveArguments input
  let evidenceRef ← evidence evidenceRef "Reconciliation evidence reference"
  format.update (resolveOp .unknown "Only unknown findings can be resolved with provider evidence." findingId
    resolvedBy reason (some evidenceRef) input.now) store

/-! ## The service -/

/-- A call of the service; the ledger that a run exports is the one of its moment. -/
inductive ServiceEvent
  | runReconciliation (ledger : Ledger.Options) (ledgerStore : Ledger.Store) (inputs : Inputs)
  | resolveDrift (input : ResolveInput)
  | resolveUnknown (input : ResolveInput) (evidenceRef : JsValue)

/-- What a call leaves; a call that throws leaves the store as it was. -/
def serve (store : Option ReconciliationState) : ServiceEvent → Option ReconciliationState
  | .runReconciliation ledger ledgerStore inputs => match runReconciliation ledger inputs ledgerStore store with
    | .ok (_, state) => some state
    | .error _ => store
  | .resolveDrift input => match resolveDrift input store with
    | .ok (_, state) => some state
    | .error _ => store
  | .resolveUnknown input evidenceRef => match resolveUnknown input evidenceRef store with
    | .ok (_, state) => some state
    | .error _ => store

def service : Machine (Option ReconciliationState) ServiceEvent where
  initial := none
  step store event := some (serve store event)

def findingsOf (store : Option ReconciliationState) : List ReconciliationFinding := (store.getD format.empty).findings

/-! ## Opening findings -/

/-- An open finding that says of an action what its result says. -/
structure SpeaksFor (result : ReconciliationActionResult) (finding : ReconciliationFinding) : Prop where
  isOpen : isOpen finding = true
  tenantId : finding.tenantId = result.tenantId
  actionId : finding.actionId = result.actionId
  actionHash : finding.actionHash = result.actionHash
  classification : result.classification = some finding.classification

theorem makeFinding_ok {result : ReconciliationActionResult} {classification : FindingClassification} {now : Int}
    {uuid : String} {finding : ReconciliationFinding} (hClass : result.classification = some classification)
    (h : makeFinding result classification now uuid = .ok finding) :
    SpeaksFor result finding ∧ finding.findingId.val = uuidName "finding-" uuid := by
  obtain ⟨findingId, hName, h⟩ := bind_eq_ok h
  obtain ⟨detail, _, h⟩ := bind_eq_ok h
  obtain ⟨detectedAt, _, h⟩ := bind_eq_ok h
  cases h
  exact ⟨⟨rfl, rfl, rfl, rfl, hClass⟩, identifierOr_ok hName⟩

theorem openFindings_ok {results : List ReconciliationActionResult} {findings findings' : List ReconciliationFinding}
    {now : Int} {uuid : Nat → String} {opened : Nat}
    (h : openFindings now uuid results findings = .ok (findings', opened)) :
    ∃ made, findings' = findings ++ made ∧ opened = made.length ∧
      List.Forall₂ SpeaksFor (opening (openHashes findings) results) made ∧
      ∀ finding ∈ made, ∃ n < made.length, finding.findingId.val = uuidName "finding-" (uuid n) := by
  induction results generalizing findings findings' uuid opened with
  | nil =>
    cases h
    exact ⟨[], (List.append_nil _).symm, rfl, .nil, fun _ h => (List.not_mem_nil h).elim⟩
  | cons result rest ih =>
    rw [openFindings] at h
    rw [opening]
    cases hClass : result.classification with
    | none =>
      rw [hClass] at h
      rw [if_pos (.inl rfl)]
      exact ih h
    | some classification =>
      rw [hClass] at h
      dsimp only at h
      split at h
      · rename_i hOpen
        rw [if_pos (.inr (any_open_iff.mp hOpen))]
        exact ih h
      · rename_i hOpen
        have hNew : ¬((some classification : Option FindingClassification) = none ∨
            result.actionHash ∈ openHashes findings) := by
          rw [← any_open_iff]
          simpa using hOpen
        obtain ⟨_, _, h⟩ := bind_eq_ok h
        obtain ⟨finding, hMake, h⟩ := bind_eq_ok h
        obtain ⟨⟨last, count⟩, hRest, h⟩ := bind_eq_ok h
        cases h
        obtain ⟨hSpeaks, hId⟩ := makeFinding_ok hClass hMake
        obtain ⟨made, rfl, rfl, hMade, hNames⟩ := ih hRest
        have hHashes : openHashes (findings ++ [finding]) = openHashes findings ++ [result.actionHash] := by
          simp [openHashes, List.filter_append, hSpeaks.isOpen, hSpeaks.actionHash]
        rw [if_neg hNew]
        rw [hHashes] at hMade
        refine ⟨finding :: made, by simp, rfl, .cons hSpeaks hMade, List.forall_mem_cons.mpr ⟨?_, ?_⟩⟩
        · exact ⟨0, Nat.succ_pos _, hId⟩
        · intro other hOther
          obtain ⟨n, hn, hName⟩ := hNames other hOther
          exact ⟨n + 1, Nat.succ_lt_succ hn, hName⟩

theorem openFindings_none {results : List ReconciliationActionResult} {findings : List ReconciliationFinding} {now : Int}
    {uuid : Nat → String}
    (h : ∀ result ∈ results, result.classification ≠ none → result.actionHash ∈ openHashes findings) :
    openFindings now uuid results findings = .ok (findings, 0) := by
  induction results generalizing uuid with
  | nil => rfl
  | cons result rest ih =>
    rw [List.forall_mem_cons] at h
    rw [openFindings]
    cases hClass : result.classification with
    | none => exact ih h.2
    | some classification =>
      dsimp only
      rw [if_pos (any_open_iff.mpr (h.1 (by rw [hClass]; exact Option.some_ne_none _)))]
      exact ih h.2

theorem mem_opening {hashes : List Hash} {results : List ReconciliationActionResult} {result : ReconciliationActionResult} :
    result ∈ opening hashes results ↔ result.classification ≠ none ∧ result.actionHash ∉ hashes ∧
      ∃ before after, results = before ++ result :: after ∧
        ∀ earlier ∈ before, earlier.classification ≠ none → earlier.actionHash ≠ result.actionHash := by
  induction results generalizing hashes with
  | nil => simp [opening]
  | cons first rest ih =>
    rw [opening]
    split
    · rename_i hSkip
      rw [ih]
      refine and_congr_right fun hClass => and_congr_right fun hHash => ?_
      constructor
      · rintro ⟨before, after, rfl, hEarlier⟩
        refine ⟨first :: before, after, rfl, List.forall_mem_cons.mpr ⟨fun hFirst hSame => ?_, hEarlier⟩⟩
        rcases hSkip with hNone | hOpen
        · exact hFirst hNone
        · exact hHash (hSame ▸ hOpen)
      · rintro ⟨before, after, hSplit, hEarlier⟩
        cases before with
        | nil =>
          obtain ⟨rfl, rfl⟩ := List.cons.inj hSplit
          rcases hSkip with hNone | hOpen
          · exact absurd hNone hClass
          · exact absurd hOpen hHash
        | cons head before =>
          obtain ⟨rfl, rfl⟩ := List.cons.inj hSplit
          exact ⟨before, after, rfl, (List.forall_mem_cons.mp hEarlier).2⟩
    · rename_i hNew
      rw [not_or] at hNew
      rw [List.mem_cons, ih]
      constructor
      · rintro (rfl | ⟨hClass, hHash, before, after, rfl, hEarlier⟩)
        · exact ⟨hNew.1, hNew.2, [], rest, rfl, fun _ h => (List.not_mem_nil h).elim⟩
        · rw [List.mem_append, not_or] at hHash
          refine ⟨hClass, hHash.1, first :: before, after, rfl, List.forall_mem_cons.mpr ⟨fun _ hSame => ?_, hEarlier⟩⟩
          exact hHash.2 (hSame ▸ List.mem_singleton_self _)
      · rintro ⟨hClass, hHash, before, after, hSplit, hEarlier⟩
        cases before with
        | nil => exact .inl (List.cons.inj hSplit).1.symm
        | cons head before =>
          obtain ⟨rfl, rfl⟩ := List.cons.inj hSplit
          rw [List.forall_mem_cons] at hEarlier
          refine .inr ⟨hClass, ?_, before, after, rfl, hEarlier.2⟩
          rw [List.mem_append, List.mem_singleton, not_or]
          exact ⟨hHash, fun hSame => hEarlier.1 hNew.1 hSame.symm⟩

theorem opening_hash {hashes : List Hash} {results : List ReconciliationActionResult} :
    ∀ result ∈ results, result.classification ≠ none →
      result.actionHash ∈ hashes ∨ ∃ first ∈ opening hashes results, first.actionHash = result.actionHash := by
  induction results generalizing hashes with
  | nil => exact fun _ h => (List.not_mem_nil h).elim
  | cons first rest ih =>
    rw [opening]
    refine List.forall_mem_cons.mpr ⟨fun hClass => ?_, fun result hResult hClass => ?_⟩
    · split
      · rename_i hSkip
        exact .inl (hSkip.resolve_left hClass)
      · exact .inr ⟨first, List.mem_cons_self, rfl⟩
    · split
      · exact ih result hResult hClass
      · rcases ih result hResult hClass with hOld | ⟨other, hOther, hSame⟩
        · rcases List.mem_append.mp hOld with hOld | hFirst
          · exact .inl hOld
          · exact .inr ⟨first, List.mem_cons_self, (List.mem_singleton.mp hFirst).symm⟩
        · exact .inr ⟨other, List.mem_cons_of_mem first hOther, hSame⟩

theorem speaksFor_mem {results : List ReconciliationActionResult} {made : List ReconciliationFinding}
    (h : List.Forall₂ SpeaksFor results made) :
    (∀ result ∈ results, ∃ finding ∈ made, SpeaksFor result finding) ∧
      ∀ finding ∈ made, ∃ result ∈ results, SpeaksFor result finding := by
  induction h with
  | nil => exact ⟨fun _ h => (List.not_mem_nil h).elim, fun _ h => (List.not_mem_nil h).elim⟩
  | @cons result finding results made hFirst _ ih =>
    constructor
    · refine List.forall_mem_cons.mpr ⟨⟨finding, List.mem_cons_self, hFirst⟩, fun other hOther => ?_⟩
      obtain ⟨told, hTold, hSpeaks⟩ := ih.1 other hOther
      exact ⟨told, List.mem_cons_of_mem _ hTold, hSpeaks⟩
    · refine List.forall_mem_cons.mpr ⟨⟨result, List.mem_cons_self, hFirst⟩, fun other hOther => ?_⟩
      obtain ⟨told, hTold, hSpeaks⟩ := ih.2 other hOther
      exact ⟨told, List.mem_cons_of_mem _ hTold, hSpeaks⟩

theorem hash_open {results : List ReconciliationActionResult} {findings made : List ReconciliationFinding}
    (h : List.Forall₂ SpeaksFor (opening (openHashes findings) results) made) :
    ∀ result ∈ results, result.classification ≠ none → result.actionHash ∈ openHashes (findings ++ made) := by
  intro result hResult hClass
  rw [openHashes, List.filter_append, List.map_append, List.mem_append]
  rcases opening_hash result hResult hClass with hOld | ⟨first, hFirst, hSame⟩
  · exact .inl hOld
  · obtain ⟨finding, hFinding, hSpeaks⟩ := (speaksFor_mem h).1 first hFirst
    refine .inr (List.mem_map.mpr ⟨finding, List.mem_filter.mpr ⟨hFinding, hSpeaks.isOpen⟩, ?_⟩)
    exact hSpeaks.actionHash.trans hSame

/-! ## Findings and verdicts -/

/-- Every drifted or unknown action has an open finding of its own. -/
def Reflected (results : List ReconciliationActionResult) (findings : List ReconciliationFinding) : Prop :=
  ∀ result ∈ results, result.classification ≠ none → ∃ finding ∈ findings, SpeaksFor result finding

/-- For every drifted or unknown action there is an open finding of its own already, or no open finding and no earlier
drifted or unknown action with its hash. -/
def Unclaimed (results : List ReconciliationActionResult) (findings : List ReconciliationFinding) : Prop :=
  ∀ result ∈ results, result.classification ≠ none → (∃ finding ∈ findings, SpeaksFor result finding) ∨
    (∀ finding ∈ findings, isOpen finding = true → finding.actionHash ≠ result.actionHash) ∧
    ∃ before after, results = before ++ result :: after ∧
      ∀ earlier ∈ before, earlier.classification ≠ none → earlier.actionHash ≠ result.actionHash

theorem not_mem_openHashes {findings : List ReconciliationFinding} {hash : Hash} :
    hash ∉ openHashes findings ↔ ∀ finding ∈ findings, isOpen finding = true → finding.actionHash ≠ hash := by
  simp only [openHashes, List.mem_map, List.mem_filter, not_exists, not_and, and_imp]

theorem reflected_iff {results : List ReconciliationActionResult} {findings made : List ReconciliationFinding}
    (hIds : (results.map (·.actionId)).Nodup) (h : List.Forall₂ SpeaksFor (opening (openHashes findings) results) made) :
    Reflected results (findings ++ made) ↔ Unclaimed results findings := by
  refine forall_congr' fun result => forall_congr' fun hResult => forall_congr' fun hClass => ?_
  rw [← not_mem_openHashes]
  constructor
  · rintro ⟨finding, hFinding, hSpeaks⟩
    rcases List.mem_append.mp hFinding with hOld | hMade
    · exact .inl ⟨finding, hOld, hSpeaks⟩
    · obtain ⟨opener, hOpener, hOwn⟩ := (speaksFor_mem h).2 finding hMade
      obtain ⟨_, hFree, before, after, hSplit, hEarlier⟩ := mem_opening.mp hOpener
      have hMem : opener ∈ results := hSplit ▸ List.mem_append_right _ List.mem_cons_self
      have hSame : opener = result := List.inj_on_of_nodup_map hIds hMem hResult (hOwn.actionId.symm.trans hSpeaks.actionId)
      rw [hSame] at hFree hSplit hEarlier
      exact .inr ⟨hFree, before, after, hSplit, hEarlier⟩
  · rintro (⟨finding, hFinding, hSpeaks⟩ | ⟨hFree, hEarlier⟩)
    · exact ⟨finding, List.mem_append_left _ hFinding, hSpeaks⟩
    · obtain ⟨finding, hFinding, hSpeaks⟩ := (speaksFor_mem h).1 result (mem_opening.mpr ⟨hClass, hFree, hEarlier⟩)
      exact ⟨finding, List.mem_append_right _ hFinding, hSpeaks⟩

section Run

variable {ledger : Ledger.Options} {inputs : Inputs} {ledgerStore : Ledger.Store} {store : Option ReconciliationState}
  {report : ReconciliationReport} {state : ReconciliationState}

structure Opens (inputs : Inputs) (store : Option ReconciliationState) (report : ReconciliationReport)
    (state : ReconciliationState) : Prop where
  accepted : Accepted state
  counts : ∀ run ∈ state.lastRun, run.counts = report.counts
  findings : ∃ now, openFindings now (fun n => inputs.uuid (n + 1)) report.actions (findingsOf store) =
    .ok (state.findings, report.findingsOpened)

theorem runReconciliation_opens (h : runReconciliation ledger inputs ledgerStore store = .ok (report, state)) :
    Opens inputs store report state := by
  obtain ⟨value, _, h⟩ := bind_eq_ok h
  obtain ⟨operator, _, h⟩ := bind_eq_ok h
  obtain ⟨_, _, h⟩ := bind_eq_ok h
  obtain ⟨now, _, h⟩ := bind_eq_ok h
  obtain ⟨exported, _, h⟩ := bind_eq_ok h
  obtain ⟨groups, _, h⟩ := bind_eq_ok h
  obtain ⟨results, _, h⟩ := bind_eq_ok h
  obtain ⟨⟨opened, last⟩, hUpdate, h⟩ := bind_eq_ok h
  cases h
  obtain ⟨hRun, hAccepted⟩ := format_accepts.update_ok hUpdate
  obtain ⟨runId, _, hLift, hRun⟩ := bind_ok hRun
  obtain ⟨_, rfl⟩ := lift_ok hLift
  obtain ⟨ranAt, _, hLift, hRun⟩ := bind_ok hRun
  obtain ⟨_, rfl⟩ := lift_ok hLift
  rw [modify_bind, get_bind] at hRun
  obtain ⟨⟨findings, count⟩, _, hLift, hRun⟩ := bind_ok hRun
  obtain ⟨hFindings, rfl⟩ := lift_ok hLift
  dsimp only at hRun
  rw [modify_bind] at hRun
  cases hRun
  exact ⟨hAccepted, fun run hRun => Option.some.inj hRun ▸ rfl, _, hFindings⟩

theorem Reports.entries {exported : LedgerExport} {groups : List Group}
    (h : Reports ledger inputs ledgerStore report exported groups) :
    authorize ledger inputs.capability .exports = .ok report.tenantId ∧
      groupByAction [] (entriesOf report.tenantId (stateOf ledgerStore).entries) = .ok groups ∧
      classifyAll inputs.provider report.tenantId groups = .ok report.actions := by
  obtain ⟨hAccess, hEntries, _⟩ := exportTenant_ok h.exports
  rw [h.tenantId, ← hEntries]
  exact ⟨hAccess, h.grouped, h.results⟩

theorem runReconciliation_again {again : Inputs} {report' : ReconciliationReport} {state' : ReconciliationState}
    (h : runReconciliation ledger inputs ledgerStore store = .ok (report, state))
    (hCapability : again.capability = inputs.capability) (hProvider : again.provider = inputs.provider)
    (hAgain : runReconciliation ledger again ledgerStore (some state) = .ok (report', state')) :
    report'.findingsOpened = 0 ∧ state'.findings = state.findings := by
  obtain ⟨_, groups, hReports⟩ := runReconciliation_ok h
  obtain ⟨_, groups', hReports'⟩ := runReconciliation_ok hAgain
  obtain ⟨hAccess, hGroups, hResults⟩ := hReports.entries
  obtain ⟨hAccess', hGroups', hResults'⟩ := hReports'.entries
  rw [hCapability, hAccess] at hAccess'
  rw [← Except.ok.inj hAccess', hGroups] at hGroups'
  rw [← Except.ok.inj hAccess', ← Except.ok.inj hGroups', hProvider, hResults] at hResults'
  obtain ⟨now, hFindings⟩ := (runReconciliation_opens h).findings
  obtain ⟨now', hFindings'⟩ := (runReconciliation_opens hAgain).findings
  obtain ⟨made, hState, _, hMade, _⟩ := openFindings_ok hFindings
  have hOpen := hash_open hMade
  rw [← hState] at hOpen
  have hNone : openFindings now' (fun n => again.uuid (n + 1)) report.actions (findingsOf (some state)) =
      .ok (state.findings, 0) :=
    openFindings_none hOpen
  rw [← Except.ok.inj hResults', hNone] at hFindings'
  obtain ⟨hSame, hCount⟩ := Prod.mk.inj (Except.ok.inj hFindings')
  exact ⟨hCount.symm, hSame.symm⟩

end Run

/-- A run that succeeds leaves an open finding for every drifted or unknown action of its report, and a run on the same
ledger and provider that follows at once opens none and leaves the findings as they are. -/
def Reflects (store : Option ReconciliationState) : ServiceEvent → Prop
  | .runReconciliation ledger ledgerStore inputs => ∀ report state,
    runReconciliation ledger inputs ledgerStore store = .ok (report, state) →
    Reflected report.actions state.findings ∧
      ∀ again report' state', again.capability = inputs.capability → again.provider = inputs.provider →
        runReconciliation ledger again ledgerStore (some state) = .ok (report', state') →
        report'.findingsOpened = 0 ∧ state'.findings = state.findings
  | _ => True

/-- A run that succeeds finds no hash of a drifted or unknown action taken by an open finding that is not its own. -/
def FindsUnclaimed (store : Option ReconciliationState) : ServiceEvent → Prop
  | .runReconciliation ledger ledgerStore inputs => ∀ tenantId groups results,
    (∃ report state, runReconciliation ledger inputs ledgerStore store = .ok (report, state)) →
    authorize ledger inputs.capability .exports = .ok tenantId →
    groupByAction [] (entriesOf tenantId (stateOf ledgerStore).entries) = .ok groups →
    classifyAll inputs.provider tenantId groups = .ok results → Unclaimed results (findingsOf store)
  | _ => True

theorem reflects_iff (store : Option ReconciliationState) (event : ServiceEvent) :
    Reflects store event ↔ FindsUnclaimed store event := by
  cases event with
  | runReconciliation ledger ledgerStore inputs =>
    have hStep : ∀ report state, runReconciliation ledger inputs ledgerStore store = .ok (report, state) →
        (Reflected report.actions state.findings ↔ Unclaimed report.actions (findingsOf store)) := by
      intro report state h
      obtain ⟨_, groups, hReports⟩ := runReconciliation_ok h
      obtain ⟨now, hFindings⟩ := (runReconciliation_opens h).findings
      obtain ⟨made, hState, _, hMade, _⟩ := openFindings_ok hFindings
      rw [hState]
      exact reflected_iff ((classifyAll_ids hReports.results).nodup_iff.mpr hReports.grouping.nodup) hMade
    constructor
    · rintro hReflects tenantId groups results ⟨report, state, h⟩ hAccess hGroups hResults
      obtain ⟨_, groups', hReports⟩ := runReconciliation_ok h
      obtain ⟨hAccess', hGroups', hResults'⟩ := hReports.entries
      cases Except.ok.inj (hAccess.symm.trans hAccess')
      cases Except.ok.inj (hGroups.symm.trans hGroups')
      cases Except.ok.inj (hResults.symm.trans hResults')
      exact (hStep report state h).mp (hReflects report state h).1
    · intro hUnclaimed report state h
      obtain ⟨_, groups, hReports⟩ := runReconciliation_ok h
      obtain ⟨hAccess, hGroups, hResults⟩ := hReports.entries
      exact ⟨(hStep report state h).mpr (hUnclaimed _ _ _ ⟨report, state, h⟩ hAccess hGroups hResults),
        fun again report' state' hCapability hProvider hAgain => runReconciliation_again h hCapability hProvider hAgain⟩
  | resolveDrift input => exact Iff.rfl
  | resolveUnknown input evidenceRef => exact Iff.rfl

/-- The findings of a service reflect its verdicts throughout a run exactly when no hash is taken in any of its steps. -/
theorem findings_reflect_iff (events : List ServiceEvent) :
    service.Always Reflects events ↔ service.Always FindsUnclaimed events :=
  Machine.always_congr reflects_iff events

/-! ## A verdict that changes -/

section Classify

variable {provider : ReconciliationProvider} {tenantId actionId : Identifier} {first : LedgerEntry} {rest : List LedgerEntry}
  {result : ReconciliationActionResult}

theorem classify_present (h : classify provider tenantId actionId first rest = .ok result) :
    result.actionHash = first.actionHash ∧ ∃ worldId, provider.resolveWorld actionId first.actionHash = .ok worldId ∧
      inspectWorld provider actionId worldId = .ok result.providerPresent := by
  obtain ⟨worldId, hWorld, h⟩ := bind_eq_ok h
  obtain ⟨present, hPresent, h⟩ := bind_eq_ok h
  cases h
  exact ⟨rfl, worldId, hWorld, hPresent⟩

theorem notCommitted_unknown (h : classify provider tenantId actionId first rest = .ok result)
    (hIntent : result.ledgerIntent = .notCommitted) (hPresent : result.providerPresent = none) :
    result.classification = some .unknown := by
  rw [ReconciliationActionResult.classification, (classify_ok h).outcome, hIntent, hPresent]
  rfl

theorem notCommitted_drifted (h : classify provider tenantId actionId first rest = .ok result)
    (hIntent : result.ledgerIntent = .notCommitted) (hPresent : result.providerPresent = some true) :
    result.classification = some .drifted := by
  rw [ReconciliationActionResult.classification, (classify_ok h).outcome, hIntent, hPresent]
  rfl

end Classify

def knowingProvider : ReconciliationProvider := ⟨fun _ _ => .ok (some "world"), fun actionId _ => .ok (some [actionId.val])⟩

theorem intent_notCommitted {entries : List LedgerEntry} (h : ∀ entry ∈ entries, entry.stage ≠ .executionAttempt ∧
    entry.stage ≠ .providerReceipt ∧ (entry.stage = .compensation → hasStatus "attempted" entry = false)) :
    classifyIntent entries = .notCommitted := by
  have hNone : ∀ stage, (∀ entry ∈ entries, entry.stage ≠ stage) → entriesAt entries stage = [] := by
    intro stage hStage
    refine List.filter_eq_nil_iff.mpr fun entry hEntry => ?_
    simpa using hStage entry hEntry
  have hReceipt := hNone .providerReceipt fun entry hEntry => (h entry hEntry).2.1
  have hAttempt : lastEntry entries .executionAttempt = none := by
    rw [lastEntry, hNone .executionAttempt fun entry hEntry => (h entry hEntry).1]
    rfl
  have hLast : (lastEntry entries .compensation).any (hasStatus "attempted") = false := by
    cases hEntry : lastEntry entries .compensation with
    | none => rfl
    | some entry =>
      obtain ⟨hMem, hStage⟩ := List.mem_filter.mp (List.mem_of_getLast? hEntry)
      exact (h entry hMem).2.2 (of_decide_eq_true hStage)
  rw [classifyIntent, hLast, hReceipt, hAttempt]
  rfl

theorem hasStatus_of {entry : LedgerEntry} {status other : String}
    (h : entry.data.toValue = .object [("status", .string status)]) (hOther : status ≠ other) :
    hasStatus other entry = false := by
  obtain ⟨field, hFields, hField⟩ := List.map_eq_singleton_iff.mp (JsValue.object.inj h)
  obtain ⟨hName, hValue⟩ := Prod.mk.inj hField
  have hGet : entry.data.get "status" = some field.2 := by
    rw [LedgerData.get, hFields, ← hName]
    exact List.lookup_cons_self
  rw [hasStatus, hGet]
  cases hScalar : field.2 with
  | string s =>
    rw [hScalar] at hValue
    have hText : s.val = status := JsValue.string.inj hValue
    simpa [hText] using hOther
  | integer z => rfl
  | fraction text => rfl
  | bool b => rfl
  | null => rfl

theorem requested_evidence : ∀ evidence ∈ (recordOf (requestedAction firstName)).evidence,
    evidence.stage ≠ .executionAttempt ∧ evidence.stage ≠ .providerReceipt ∧ (evidence.stage = .compensation →
      evidence.data = .ok (.object [("status", .string "not_supported")])) := by
  change ∀ evidence ∈ [_, _, _, _, _, _], _
  simp only [List.forall_mem_cons]
  refine ⟨?_, ?_, ?_, ?_, ?_, ?_, fun _ h => (List.not_mem_nil h).elim⟩
  · exact ⟨by decide, by decide, fun h => absurd h (by decide)⟩
  · exact ⟨by decide, by decide, fun h => absurd h (by decide)⟩
  · exact ⟨by decide, by decide, fun h => absurd h (by decide)⟩
  · exact ⟨by decide, by decide, fun h => absurd h (by decide)⟩
  · exact ⟨by decide, by decide, fun h => absurd h (by decide)⟩
  · exact ⟨by decide, by decide, fun _ => rfl⟩

theorem requested_intent {digest : Hash} {entries : List LedgerEntry}
    (h : List.Forall₂ (Entered acme firstName digest) (recordOf (requestedAction firstName)).evidence entries) :
    classifyIntent entries = .notCommitted := by
  refine intent_notCommitted fun entry hEntry => ?_
  obtain ⟨i, hi, rfl⟩ := List.getElem_of_mem hEntry
  have hItem : i < (recordOf (requestedAction firstName)).evidence.length := h.length_eq ▸ hi
  have hOwn : Entered acme firstName digest (recordOf (requestedAction firstName)).evidence[i] entries[i] := h.get hItem hi
  obtain ⟨hAttempt, hReceipt, hCompensation⟩ := requested_evidence _ (List.getElem_mem hItem)
  rw [hOwn.stage]
  refine ⟨hAttempt, hReceipt, fun hLast => ?_⟩
  have hData := hOwn.data
  rw [hCompensation hLast, ok_bind] at hData
  have hSame := normalizeData_ok hData
  exact hasStatus_of hSame (by decide)

theorem finding_within (finding : ReconciliationFinding) : Within 2 60000 finding.toJson := by
  have hMargin : margin 2 ≤ 286 := margin_le (by decide)
  have hInner : margin 3 ≤ 286 := margin_le (by decide)
  have hKind : Within 3 322 (.string "ghostapi.reconciliation-finding") := by
    have hControl : ("ghostapi.reconciliation-finding".toList.all fun c => !isControl c) = true := by decide
    have hWithin : Within 3 (8 * 40 + 2) (.string "ghostapi.reconciliation-finding") :=
      string_within (fun c hc => by simpa using List.all_eq_true.mp hControl c hc) (by decide)
    exact hWithin
  have hClass : plainName finding.classification.text = true := by cases finding.classification <;> rfl
  have hStatus : plainName (if finding.resolution.isSome then "resolved" else "open") = true := by
    cases finding.resolution with
    | none => exact (by decide : plainName "open" = true)
    | some resolution => exact (by decide : plainName "resolved" = true)
  have hResolution : ∀ v, finding.resolution.map Resolution.toJson = some v → Within 3 8000 v := by
    intro v hv
    obtain ⟨resolution, _, rfl⟩ := Option.map_eq_some_iff.mp hv
    have hRef : ∀ v, (resolution.evidenceRef.map fun text => Json.string text.val) = some v → Within 4 1026 v := by
      intro v hv
      obtain ⟨ref, _, rfl⟩ := Option.map_eq_some_iff.mp hv
      exact text_within ref
    obtain ⟨total, hTotal, hMembers⟩ := optional_members 3 "evidenceRef" _ 1026 rfl hRef
    refine (record_within (Members.append (.cons rfl (timestamp_within resolution.resolvedAt.property)
      (.cons rfl (id_within _) (.cons rfl (text_within _) .nil))) hMembers)).mono ?_
    omega
  obtain ⟨total, hTotal, hMembers⟩ := optional_members 2 "resolution" _ 8000 rfl hResolution
  refine (record_within (Members.append (.cons rfl (number_within (n := 1) (by decide)) (.cons rfl hKind
    (.cons rfl (id_within _) (.cons rfl (id_within _) (.cons rfl (id_within _) (.cons rfl (hash_within _)
    (.cons rfl (constant_within hClass) (.cons rfl (text_within _) (.cons rfl (timestamp_within finding.detectedAt.property)
    (.cons rfl (constant_within hStatus) .nil)))))))))) hMembers)).mono ?_
  omega

theorem lastRun_within {run : LastRun} (h : ∀ outcome, run.counts outcome ≤ MAX_SAFE_INTEGER) :
    Within 1 6000 run.toJson := by
  have hMargin : margin 1 ≤ 286 := margin_le (by decide)
  have hInner : margin (1 + 1) ≤ 286 := margin_le (by decide)
  refine (record_within (.cons rfl (id_within _) (.cons rfl (timestamp_within run.ranAt.property)
    (.cons rfl (record_within (.cons rfl (number_within (h .committed)) (.cons rfl (number_within (h .notCommitted))
      (.cons rfl (number_within (h .unknown)) (.cons rfl (number_within (h .compensated))
      (.cons rfl (number_within (h .drifted)) .nil)))))) .nil)))).mono ?_
  omega

theorem short_state {state : ReconciliationState} (hFindings : state.findings.length ≤ 50)
    (hCounts : ∀ run ∈ state.lastRun, ∀ outcome, run.counts outcome ≤ MAX_SAFE_INTEGER) :
    format.bytes state ≤ format.maxBytes := by
  have hMargin : margin 0 ≤ 286 := margin_le (by decide)
  have hList : Within 1 (4 + 8 * 1 + _ * (8 * 1 + 10 + 60000)) (.array (state.findings.map ReconciliationFinding.toJson)) :=
    array_within (List.forall_mem_map.mpr fun finding _ => finding_within finding)
  rw [List.length_map] at hList
  have hState : Within 0 4000000 state.toJson := by
    refine (record_within (.cons rfl (number_within (n := 1) (by decide)) (.cons rfl (constant_within rfl)
      (.cons rfl (?last : Within 1 6000 _) (.cons rfl hList .nil))))).mono ?bound
    case last =>
      cases hRun : state.lastRun with
      | none => exact (by decide : (pretty 1 .null).utf8ByteSize ≤ 6000)
      | some run => exact lastRun_within (hCounts run hRun)
    case bound => omega
  have hLine : "\n".utf8ByteSize = 1 := by decide
  have hMax : format.maxBytes = 4194304 := rfl
  rw [StoreFormat.bytes, fileText, String.utf8ByteSize_append, hLine, hMax]
  exact Nat.add_le_add_right hState 1 |>.trans (by decide)

/-- The inputs of a run that finds the provider reachable. -/
def laterInputs : Inputs := { acmeInputs with provider := knowingProvider, uuid := fun n => binaryUuid (n + 2000) }

section Requested

variable {inputs : Inputs} {after : ActionLedgerState} {report : ReconciliationReport} {exported : LedgerExport}
  {groups : List Group} {digest : Hash} {store : Option ReconciliationState} {state : ReconciliationState}

theorem requested_entry
    (hEntered : List.Forall₂ (Entered acme firstName digest) (recordOf (requestedAction firstName)).evidence after.entries) :
    after.entries.length = 6 ∧ ∀ entry ∈ after.entries,
      entry.tenantId = acme ∧ entry.actionId = firstName ∧ entry.actionHash = digest := by
  refine ⟨hEntered.length_eq.symm, fun entry hEntry => ?_⟩
  obtain ⟨i, hi, rfl⟩ := List.getElem_of_mem hEntry
  have hItem : i < (recordOf (requestedAction firstName)).evidence.length := hEntered.length_eq ▸ hi
  have hEntered : Entered acme firstName digest _ after.entries[i] := hEntered.get hItem hi
  exact ⟨hEntered.tenant, hEntered.action, hEntered.digest⟩

theorem requested_run {events : List Event} (run : (machine acmeOptions).FreeRun events (some after))
    (hBytes : Ledger.format.bytes after ≤ Ledger.format.maxBytes)
    (hEntered : List.Forall₂ (Entered acme firstName digest) (recordOf (requestedAction firstName)).evidence after.entries)
    (ready : Ready acmeOptions inputs acme store state) (hFew : state.findings.length ≤ 6) :
    ∃ report state' exported groups, runReconciliation acmeOptions inputs (some after) store = .ok (report, state') ∧
      Reports acmeOptions inputs (some after) report exported groups := by
  obtain ⟨hLength, hOwn⟩ := requested_entry hEntered
  have hRoom : Room inputs acme (entriesOf acme after.entries) state := by
    have hCount : (entriesOf acme after.entries).length ≤ 6 := (List.length_filter_le _ _).trans_eq hLength
    refine room_of ?_
    rw [MAX_FINDINGS]
    omega
  have hNames : PlainlyNamed acmeOptions events (some after) acme := by
    refine ⟨fun stored hStored => Option.some.inj hStored ▸ hBytes, fun actionId _ hSome => ?_⟩
    obtain ⟨entry, hEntry, hName⟩ := mem_entriesForAction.mp hSome
    obtain ⟨_, hFirst, _⟩ := hOwn entry (mem_entriesOf.mp hEntry).1
    rw [← hName, hFirst]
    exact ⟨rfl, rfl⟩
  obtain ⟨report, state', hRun, _⟩ := covers_of run ready hRoom hNames
  obtain ⟨exported, groups, hReports⟩ := runReconciliation_ok hRun
  exact ⟨report, state', exported, groups, hRun, hReports⟩

theorem requested_report (hAccess : authorize acmeOptions inputs.capability .exports = .ok acme)
    (hEntered : List.Forall₂ (Entered acme firstName digest) (recordOf (requestedAction firstName)).evidence after.entries)
    (h : Reports acmeOptions inputs (some after) report exported groups) :
    report.actions.length ≤ 6 ∧ (∃ result, result ∈ report.actions) ∧ ∀ result ∈ report.actions,
      result.ledgerIntent = .notCommitted ∧ result.actionHash = digest ∧ ∃ first rest,
        classify inputs.provider acme firstName first rest = .ok result := by
  obtain ⟨hAuthorized, hEntries, _⟩ := exportTenant_ok h.exports
  have hTenant : acme = exported.tenantId := Except.ok.inj (hAccess.symm.trans hAuthorized)
  obtain ⟨hLength, hOwn⟩ := requested_entry hEntered
  have hAll : exported.entries = after.entries := by
    rw [hEntries, ← hTenant]
    exact List.filter_eq_self.mpr fun entry hEntry => decide_eq_true (hOwn entry hEntry).1
  have hPlain : isGovernance firstName = false := rfl
  have hTimeline : reported firstName exported.entries = after.entries := by
    rw [hAll, reported]
    refine List.filter_eq_self.mpr fun entry hEntry => decide_eq_true ?_
    rw [(hOwn entry hEntry).2.1]
    exact ⟨rfl, hPlain⟩
  refine ⟨?_, ?_, fun result hResult => ?_⟩
  · have hGroups := groupByAction_length h.grouped
    have hIds := (classifyAll_ids h.results).length_eq
    rw [List.length_map, List.length_map] at hIds
    rw [hAll, hLength, List.length_nil] at hGroups
    omega
  · obtain ⟨entry, hEntry⟩ := List.exists_mem_of_ne_nil after.entries (List.ne_nil_of_length_pos (by omega))
    have hMem : firstName ∈ report.actions.map (·.actionId) :=
      (mem_report_iff h).mpr ⟨entry, hAll ▸ hEntry, (hOwn entry hEntry).2.1, hPlain⟩
    obtain ⟨result, hResult, _⟩ := List.mem_map.mp hMem
    exact ⟨result, hResult⟩
  · obtain ⟨group, hGroup, hClassify⟩ := classifyAll_groups h.results result hResult
    have hGrouped : group.first :: group.rest = reported group.actionId exported.entries :=
      (timelineOf_group h.grouping.nodup hGroup).symm.trans (h.grouping.timeline group.actionId)
    have hFirst : group.first ∈ reported group.actionId exported.entries := hGrouped ▸ List.mem_cons_self
    obtain ⟨hMem, hName⟩ := List.mem_filter.mp hFirst
    obtain ⟨hSame, _⟩ := of_decide_eq_true hName
    obtain ⟨_, hAction, hDigest⟩ := hOwn group.first (hAll ▸ hMem)
    have hId : group.actionId = firstName := hSame.symm.trans hAction
    rw [hId, ← hTenant] at hClassify
    rw [hId, hTimeline] at hGrouped
    refine ⟨?_, ?_, group.first, group.rest, hClassify⟩
    · rw [(classify_ok hClassify).intent, hGrouped]
      exact requested_intent hEntered
    · exact (classify_present hClassify).1.trans hDigest

structure Doubtful (digest : Hash) (state : ReconciliationState) : Prop where
  accepted : Accepted state
  readable : format.bytes state ≤ format.maxBytes
  few : state.findings.length ≤ 6
  unknown : ∀ finding ∈ state.findings, finding.classification = .unknown
  named : ∀ finding ∈ state.findings, ∃ n < 6, finding.findingId.val = uuidName "finding-" (binaryUuid (n + 1))
  claimed : digest ∈ openHashes state.findings

theorem requested_doubtful
    (hEntered : List.Forall₂ (Entered acme firstName digest) (recordOf (requestedAction firstName)).evidence after.entries)
    (hReports : Reports acmeOptions acmeInputs (some after) report exported groups)
    (h : runReconciliation acmeOptions acmeInputs (some after) none = .ok (report, state)) : Doubtful digest state := by
  obtain ⟨hFew, ⟨result, hResult⟩, hResults⟩ := requested_report (acme_authorized .exports) hEntered hReports
  have hUnknown : ∀ result ∈ report.actions, result.classification = some .unknown := by
    intro result hResult
    obtain ⟨hIntent, _, first, rest, hClassify⟩ := hResults result hResult
    obtain ⟨_, worldId, hWorld, hPresent⟩ := classify_present hClassify
    cases hWorld
    exact notCommitted_unknown hClassify hIntent (Except.ok.inj hPresent).symm
  have hOpens := runReconciliation_opens h
  obtain ⟨now, hFindings⟩ := hOpens.findings
  obtain ⟨made, hMade, _, hSpeak, hNames⟩ := openFindings_ok hFindings
  have hOnly : state.findings = made := hMade
  have hCount : made.length ≤ 6 := by
    rw [← hSpeak.length_eq]
    exact (opening_length _ _).trans hFew
  have hCounts : ∀ run ∈ state.lastRun, ∀ outcome, run.counts outcome ≤ MAX_SAFE_INTEGER := by
    intro run hRun outcome
    have hLength : countOutcomes report.actions outcome ≤ report.actions.length := List.countP_le_length
    rw [hOpens.counts run hRun, hReports.counts]
    exact hLength.trans (hFew.trans (by decide))
  refine ⟨hOpens.accepted, short_state (hOnly ▸ hCount.trans (by decide)) hCounts, hOnly ▸ hCount, ?_, ?_, ?_⟩
  · intro finding hFinding
    obtain ⟨told, hTold, hTells⟩ := (speaksFor_mem hSpeak).2 finding (hOnly ▸ hFinding)
    obtain ⟨_, _, before, rest, hSplit, _⟩ := mem_opening.mp hTold
    have hClass := hTells.classification
    rw [hUnknown told (hSplit ▸ List.mem_append_right _ List.mem_cons_self)] at hClass
    exact (Option.some.inj hClass).symm
  · intro finding hFinding
    obtain ⟨n, hn, hName⟩ := hNames finding (hOnly ▸ hFinding)
    exact ⟨n, hn.trans_le hCount, hName⟩
  · rw [← (hResults result hResult).2.1, hMade]
    exact hash_open hSpeak result hResult (by rw [hUnknown result hResult]; exact Option.some_ne_none _)

theorem Doubtful.ready (h : Doubtful digest state) : Ready acmeOptions laterInputs acme (some state) state where
  operator := acme_ready.operator
  clock := acme_ready.clock
  access := acme_ready.access
  ledgerClock := acme_ready.ledgerClock
  answers := ⟨fun _ _ => ⟨_, rfl⟩, fun _ _ => ⟨_, rfl⟩⟩
  stored := format_accepts.read_of_size h.accepted h.readable
  fresh := by
    refine ⟨fun n _ => binaryUuid_isUuid (n + 2001), fun m hm n hn hSame => ?_, fun finding hFinding n hn hSame => ?_⟩
    · rw [MAX_FINDINGS] at hm hn
      have hEqual : m + 1 + 2000 = n + 1 + 2000 := binaryUuid_inj (by omega) (by omega) hSame
      omega
    · obtain ⟨m, hm, hName⟩ := h.named finding hFinding
      rw [MAX_FINDINGS] at hn
      have hEqual : m + 1 = n + 1 + 2000 := binaryUuid_inj (by omega) (by omega) (hName.symm.trans hSame)
      omega
  runName := binaryUuid_isUuid 2000

end Requested

/-- The provider is unreachable when an action is reconciled first, and has a receipt of it when it is reconciled
again. -/
theorem drift_not_reflected : ∃ ledgerStore, (machine acmeOptions).FreeRun [recordEvent firstName] ledgerStore ∧
    ¬service.Always Reflects [.runReconciliation acmeOptions ledgerStore acmeInputs,
      .runReconciliation acmeOptions ledgerStore laterInputs] := by
  obtain ⟨entries, after, hRecord, rfl, hValid, hEntered, hRead⟩ := requested_recorded firstName
  have hPerform : perform acmeOptions (recordEvent firstName).call (recordEvent firstName).clock none = .ok after :=
    perform_recordAction (acme_authorized .append) hValid hRecord
  have hTaken : take acmeOptions none (recordEvent firstName) = some after := by rw [take, hPerform]
  have hLedger : (machine acmeOptions).FreeRun [recordEvent firstName] (some after) :=
    Machine.freeRun_of_exec (by rw [← hTaken]; rfl)
  obtain ⟨report, state, exported, groups, hRun, hReports⟩ :=
    requested_run hLedger (read_bytes hRead) hEntered acme_ready (by decide)
  have hDoubtful := requested_doubtful hEntered hReports hRun
  obtain ⟨report', state', exported', groups', hRun', hReports'⟩ :=
    requested_run hLedger (read_bytes hRead) hEntered hDoubtful.ready hDoubtful.few
  obtain ⟨_, ⟨result, hResult⟩, hResults⟩ := requested_report (acme_authorized .exports) hEntered hReports'
  obtain ⟨hIntent, hHash, first, rest, hClassify⟩ := hResults result hResult
  obtain ⟨_, worldId, hWorld, hPresent⟩ := classify_present hClassify
  cases hWorld
  have hDrifted : result.classification = some .drifted :=
    notCommitted_drifted hClassify hIntent (Except.ok.inj hPresent).symm
  have hServed : service.FreeRun [.runReconciliation acmeOptions (some after) acmeInputs] (some state) := by
    refine Machine.freeRun_of_exec ?_
    change some (serve none _) = _
    rw [serve, hRun]
  refine ⟨some after, hLedger, fun hAlways => ?_⟩
  have hReflects : Reflects (some state) (.runReconciliation acmeOptions (some after) laterInputs) :=
    hAlways [_] _ [] (some state) rfl hServed
  have hUnclaimed := (reflects_iff _ _).mp hReflects
  obtain ⟨hAccess, hGroups, hAll⟩ := hReports'.entries
  have hSome : result.classification ≠ none := hDrifted ▸ Option.some_ne_none _
  rcases hUnclaimed _ _ _ ⟨report', state', hRun'⟩ hAccess hGroups hAll result hResult hSome with
    ⟨finding, hFinding, hSpeaks⟩ | ⟨hFree, _⟩
  · have hClass := hSpeaks.classification
    rw [hDrifted, hDoubtful.unknown finding hFinding] at hClass
    cases hClass
  · exact not_mem_openHashes.mpr hFree (hHash ▸ hDoubtful.claimed)

end GhostApi.Reliability
