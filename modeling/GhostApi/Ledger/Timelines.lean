import GhostApi.Ledger.Returned

/-!
# The timeline of an action that goes on

The first call that records an action makes its timeline. Later calls with
more receipts return the timeline as it is, and so do those that follow them.
-/

namespace GhostApi.Ledger

open Js Validation Effect Effect.Mutation Actions Storage Transition

/-! ## Receipts in a timeline -/

def receiptStages : List LedgerStage := [.executionAttempt, .providerReceipt, .verification]

def receiptEntries (timeline : List LedgerEntry) : List LedgerEntry := timeline.filter (·.stage ∈ receiptStages)

/-- The entry has the stage and the data of the evidence. -/
structure Evidence.HeldBy (evidence : Evidence) (entry : LedgerEntry) : Prop where
  stage : entry.stage = evidence.stage
  data : evidence.data >>= normalizeData = .ok entry.data

/-- The entries about receipts are the evidence of these receipts, each once and in order. -/
def ShowsReceipts (timeline : List LedgerEntry) (receipts : List ActionExecutionReceipt) : Prop :=
  List.Forall₂ Evidence.HeldBy (receipts.flatMap receiptEvidence) (receiptEntries timeline)

theorem receiptEvidence_eq_nil {receipt : ActionExecutionReceipt} :
    receiptEvidence receipt = [] ↔ receipt.status = .requested := by
  rw [receiptEvidence]
  split <;> simp_all

theorem receiptEvidence_stage (receipt : ActionExecutionReceipt) :
    ∀ evidence ∈ receiptEvidence receipt, evidence.stage ∈ receiptStages := by
  rw [receiptEvidence]
  split <;> simp [receiptStages, attemptEvidence, verificationEvidence]

theorem evidence_receipts (record : ActionLedgerRecord) :
    record.evidence.filter (·.stage ∈ receiptStages) = record.receipts.flatMap receiptEvidence := by
  have hOwn : ∀ evidence ∈ record.receipts.flatMap receiptEvidence, evidence.stage ∈ receiptStages := by
    intro evidence hEvidence
    obtain ⟨receipt, _, hReceipt⟩ := List.mem_flatMap.mp hEvidence
    exact receiptEvidence_stage receipt evidence hReceipt
  rw [ActionLedgerRecord.evidence, List.filter_append, List.filter_append,
    List.filter_eq_self.mpr fun evidence hEvidence => decide_eq_true (hOwn evidence hEvidence)]
  simp [receiptStages, intentEvidence, identityEvidence, policyEvidence, approvalEvidence, credentialEvidence,
    compensationEvidence]

theorem showsReceipts_append_iff {timeline : List LedgerEntry} {receipts added : List ActionExecutionReceipt}
    (h : ShowsReceipts timeline receipts) :
    ShowsReceipts timeline (receipts ++ added) ↔ ∀ receipt ∈ added, receipt.status = .requested := by
  rw [ShowsReceipts, List.flatMap_append]
  constructor
  · intro hAll receipt hReceipt
    have hLength := hAll.length_eq
    rw [List.length_append, h.length_eq] at hLength
    have hNone : added.flatMap receiptEvidence = [] := List.eq_nil_of_length_eq_zero (by omega)
    exact receiptEvidence_eq_nil.mp (List.flatMap_eq_nil_iff.mp hNone receipt hReceipt)
  · intro hAdded
    have hNone : added.flatMap receiptEvidence = [] :=
      List.flatMap_eq_nil_iff.mpr fun receipt hReceipt => receiptEvidence_eq_nil.mpr (hAdded receipt hReceipt)
    rw [hNone, List.append_nil]
    exact h

/-! ## Calls that record one action -/

/-- Calls of a tenant for an action from a store on, the receipts of each extending those of the one before, with calls of
any kind between them. No append of the first call finds the ledger full, and the calls between leave all entries in
their places. -/
inductive Continued (options : Options) (tenantId actionId : Identifier) (store : Store) (first : ActionLedgerRecord) :
    ActionLedgerRecord → ActionLedgerState → Prop
  | first {access : JsValue} {clock : Clock} {entries : List LedgerEntry} {after : ActionLedgerState}
      (named : first.envelope.actionId = actionId) (own : authorize options access .append = .ok tenantId)
      (room : entriesForAction (stateOf store) tenantId actionId = [] →
        (stateOf store).entries.length + first.evidence.length ≤ MAX_ENTRIES)
      (recorded : recordAction options access first clock store = .ok (entries, after)) :
      Continued options tenantId actionId store first first after
  | again {last record : ActionLedgerRecord} {state after : ActionLedgerState} {access : JsValue} {clock : Clock}
      {entries : List LedgerEntry} (before : Continued options tenantId actionId store first last state)
      (named : record.envelope.actionId = actionId) (own : authorize options access .append = .ok tenantId)
      (extended : last.receipts <+: record.receipts)
      (recorded : recordAction options access record clock (some state) = .ok (entries, after)) :
      Continued options tenantId actionId store first record after
  | other {last : ActionLedgerRecord} {state : ActionLedgerState} (event : Event)
      (before : Continued options tenantId actionId store first last state)
      (kept : state.entries <+: (stateOf (take options (some state) event)).entries) :
      Continued options tenantId actionId store first last (stateOf (take options (some state) event))

section Calls

variable {options : Options} {access : JsValue} {tenantId actionId : Identifier} {record : ActionLedgerRecord}
  {clock : Clock} {store : Store} {state after : ActionLedgerState} {entries : List LedgerEntry}

theorem recordAction_shows (hValid : Valid (stateOf store)) (hAccess : authorize options access .append = .ok tenantId)
    (hNew : entriesForAction (stateOf store) tenantId record.envelope.actionId = [])
    (hRoom : (stateOf store).entries.length + record.evidence.length ≤ MAX_ENTRIES)
    (h : recordAction options access record clock store = .ok (entries, after)) :
    Valid after ∧ entriesForAction after tenantId record.envelope.actionId ≠ [] ∧
      ShowsReceipts (entriesForAction after tenantId record.envelope.actionId) record.receipts := by
  obtain ⟨_, hRun, _⟩ := recordAction_ok hAccess h
  rw [recordActionOp, get_bind, hNew] at hRun
  obtain ⟨hStored, hAfter, hEntered⟩ := appendAll_stored hValid hRoom hRun
  have hOwn : entries.filter (fun entry => entry.tenantId = tenantId ∧ entry.actionId = record.envelope.actionId) =
      entries := by
    refine List.filter_eq_self.mpr fun entry hEntry => ?_
    obtain ⟨i, hi, rfl⟩ := List.getElem_of_mem hEntry
    have hItem := hEntered.get (hEntered.length_eq ▸ hi) hi
    exact decide_eq_true ⟨hItem.tenant, hItem.action⟩
  have hTimeline : entriesForAction after tenantId record.envelope.actionId = entries := by
    rw [entriesForAction] at hNew ⊢
    rw [hStored, List.filter_append, hNew, hOwn, List.nil_append]
  rw [hTimeline]
  refine ⟨hAfter, ?_, ?_⟩
  · rintro rfl
    exact List.cons_ne_nil _ _ (List.forall₂_nil_right_iff.mp hEntered)
  · have hHeld : List.Forall₂ Evidence.HeldBy record.evidence entries :=
      hEntered.imp fun _ _ hItem => ⟨hItem.stage, hItem.data⟩
    rw [ShowsReceipts, receiptEntries, ← evidence_receipts]
    refine List.rel_filter (fun evidence entry hItem => ?_) hHeld
    dsimp only
    rw [hItem.stage]

theorem recordAction_unchanged (hValid : Valid (stateOf store))
    (hAccess : authorize options access .append = .ok tenantId)
    (hOld : entriesForAction (stateOf store) tenantId record.envelope.actionId ≠ [])
    (h : recordAction options access record clock store = .ok (entries, after)) : after = stateOf store := by
  obtain ⟨_, hRun, _⟩ := recordAction_ok hAccess h
  rcases recordActionOp_ok hValid hRun with ⟨_, hSame⟩ | ⟨hNew, _⟩
  · exact hSame
  · exact absurd hNew hOld

theorem mem_of_append_eq {α : Type} {old kept new added : List α} (hKept : kept.Sublist old)
    (h : old ++ added = kept ++ new) : ∀ x ∈ added, x ∈ new := by
  have hPrefix : kept <+: old :=
    List.prefix_of_prefix_length_le (List.prefix_append kept new) (h ▸ List.prefix_append old added) hKept.length_le
  obtain ⟨rest, rfl⟩ := hPrefix
  rw [List.append_assoc] at h
  rw [← List.append_cancel_left h]
  exact fun x hx => List.mem_append_right rest hx

theorem take_receipts (hValid : Valid state) (hOld : entriesForAction state tenantId actionId ≠ []) (event : Event)
    (hKept : state.entries <+: (stateOf (take options (some state) event)).entries) :
    Valid (stateOf (take options (some state) event)) ∧
      entriesForAction (stateOf (take options (some state) event)) tenantId actionId ≠ [] ∧
      receiptEntries (entriesForAction (stateOf (take options (some state) event)) tenantId actionId) =
        receiptEntries (entriesForAction state tenantId actionId) := by
  cases hPerform : perform options event.call event.clock (some state) with
  | error =>
    rw [take, hPerform]
    exact ⟨hValid, hOld, rfl⟩
  | ok after =>
    have hTake : stateOf (take options (some state) event) = after := by
      rw [take, hPerform]
      rfl
    rw [hTake] at hKept ⊢
    obtain ⟨operation, hCall, hRun⟩ := perform_ok hPerform
    obtain ⟨appends, hMakes, hEffects⟩ := operation_makes hValid hCall hRun
    obtain ⟨added, hAdded⟩ := hKept
    have hTimeline : entriesForAction after tenantId actionId = entriesForAction state tenantId actionId ++
        added.filter fun entry => entry.tenantId = tenantId ∧ entry.actionId = actionId := by
      rw [entriesForAction, ← hAdded, List.filter_append]
      rfl
    have hMade : ∀ core ∈ history tenantId added, ∃ append ∈ appends, append.core = core := by
      have hHistory := hEffects.histories tenantId
      rw [replay_all, ← hAdded, history, entriesOf_append, List.map_append] at hHistory
      intro core hCore
      have hNew := mem_of_append_eq List.filter_sublist hHistory core hCore
      rcases mem_replay hNew with hNone | hAppend
      · cases hNone
      · exact hAppend
    have hOther : ∀ entry ∈ added.filter fun entry => entry.tenantId = tenantId ∧ entry.actionId = actionId,
        entry.stage ∉ receiptStages := by
      intro entry hEntry
      rw [List.mem_filter, decide_eq_true_iff] at hEntry
      obtain ⟨hEntry, hOwn, hAction⟩ := hEntry
      obtain ⟨append, hAppend, hCore⟩ := hMade entry.core (mem_history.mpr ⟨hOwn, entry, hEntry, rfl⟩)
      have hTenant : operation.tenantId = tenantId := by
        rw [← (hEffects.made append hAppend).own, hCore]
        exact hOwn
      generalize hMade : event.call = call at hMakes
      cases hMakes with
      | nothing => cases hAppend
      | evidence access record hNew hRecords =>
        obtain ⟨i, hi, rfl⟩ := List.getElem_of_mem hAppend
        have hName : appends[i].core.actionId = record.envelope.actionId :=
          (hRecords.get (hRecords.length_eq ▸ hi) hi).action
        rw [hCore, show entry.core.actionId = actionId from hAction] at hName
        rw [hTenant, ← hName] at hNew
        exact absurd hNew hOld
      | governance hNamed hGovernance =>
        have hStage := hGovernance.stage
        rw [← List.mem_singleton.mp hAppend, hCore] at hStage
        rw [show entry.stage = _ from hStage]
        cases call <;> cases hNamed <;> decide
    rw [hTimeline]
    refine ⟨hEffects.valid, List.append_ne_nil_of_left_ne_nil hOld _, ?_⟩
    have hNone : (added.filter fun entry => entry.tenantId = tenantId ∧ entry.actionId = actionId).filter
        (·.stage ∈ receiptStages) = [] :=
      List.filter_eq_nil_iff.mpr fun entry hEntry => by simpa using hOther entry hEntry
    rw [receiptEntries, List.filter_append, hNone, List.append_nil]
    rfl

end Calls

structure Showing (tenantId actionId : Identifier) (store : Store) (first last : ActionLedgerRecord)
    (state : ActionLedgerState) : Prop where
  valid : Valid state
  stored : entriesForAction state tenantId actionId ≠ []
  extended : first.receipts <+: last.receipts
  made : entriesForAction (stateOf store) tenantId actionId = [] →
    ShowsReceipts (entriesForAction state tenantId actionId) first.receipts
  kept : entriesForAction (stateOf store) tenantId actionId ≠ [] →
    receiptEntries (entriesForAction state tenantId actionId) =
      receiptEntries (entriesForAction (stateOf store) tenantId actionId)

theorem Continued.showing {options : Options} {tenantId actionId : Identifier} {store : Store}
    {first last : ActionLedgerRecord} {state : ActionLedgerState} (hValid : Valid (stateOf store))
    (h : Continued options tenantId actionId store first last state) :
    Showing tenantId actionId store first last state := by
  induction h with
  | first named own room recorded =>
    subst named
    by_cases hNew : entriesForAction (stateOf store) tenantId first.envelope.actionId = []
    · obtain ⟨hAfter, hStored, hShows⟩ := recordAction_shows hValid own hNew (room hNew) recorded
      exact ⟨hAfter, hStored, List.prefix_refl _, fun _ => hShows, fun hOld => absurd hNew hOld⟩
    · cases recordAction_unchanged hValid own hNew recorded
      exact ⟨hValid, hNew, List.prefix_refl _, fun h => absurd h hNew, fun _ => rfl⟩
  | @again last record state after access clock entries before named own extended recorded ih =>
    subst named
    have hSame : after = state := @recordAction_unchanged _ _ _ _ _ (some state) _ _ ih.valid own ih.stored recorded
    rw [hSame]
    exact ⟨ih.valid, ih.stored, ih.extended.trans extended, ih.made, ih.kept⟩
  | other event before kept ih =>
    obtain ⟨hAfter, hStored, hSame⟩ := take_receipts ih.valid ih.stored event kept
    refine ⟨hAfter, hStored, ih.extended, fun hNew => ?_, fun hOld => hSame.trans (ih.kept hOld)⟩
    rw [ShowsReceipts, hSame]
    exact ih.made hNew

/-- The timeline shows the receipts of the last call exactly when those that the first call did not have are requests, or,
for an action with an earlier timeline, when that timeline shows them. -/
theorem timeline_keeps_up_iff (options : Options) (events : List Event) (store : Store)
    (run : (machine options).FreeRun events store) (tenantId actionId : Identifier) (first last : ActionLedgerRecord)
    (state : ActionLedgerState) (h : Continued options tenantId actionId store first last state) :
    ShowsReceipts (entriesForAction state tenantId actionId) last.receipts ↔
      (entriesForAction (stateOf store) tenantId actionId = [] →
        ∀ receipt ∈ last.receipts.drop first.receipts.length, receipt.status = .requested) ∧
      (entriesForAction (stateOf store) tenantId actionId ≠ [] →
        ShowsReceipts (entriesForAction (stateOf store) tenantId actionId) last.receipts) := by
  have hShowing := h.showing (run_valid run)
  by_cases hNew : entriesForAction (stateOf store) tenantId actionId = []
  · obtain ⟨added, hAdded⟩ := hShowing.extended
    have hIff := @showsReceipts_append_iff _ _ added (hShowing.made hNew)
    rw [hAdded] at hIff
    have hDrop : last.receipts.drop first.receipts.length = added := by rw [← hAdded, List.drop_left]
    rw [hIff, hDrop]
    exact ⟨fun hAll => ⟨fun _ => hAll, fun hOld => absurd hNew hOld⟩, fun hBoth => hBoth.1 hNew⟩
  · rw [ShowsReceipts, hShowing.kept hNew]
    exact ⟨fun hAll => ⟨fun h => absurd h hNew, fun _ => hAll⟩, fun hBoth => hBoth.2 hNew⟩

def attemptedAction (actionId : Identifier) : StoredAction :=
  (requestedAction actionId).push
    (receiptAt (requestedAction actionId) firstName .attempted firstDay none none none).seal

theorem attemptedAction_valid (actionId : Identifier) : (attemptedAction actionId).Valid :=
  (requestedAction_valid actionId).push ⟨rfl, rfl⟩ rfl (by simp [receiptAt]) (by simp [receiptAt])
    (by decide : 1 < MAX_RECEIPTS)

theorem requested_continued : ∃ state,
    Continued acmeOptions acme firstName none (recordOf (requestedAction firstName)) (recordOf (requestedAction firstName))
      state ∧
    (ShowsReceipts (entriesForAction state acme firstName) (recordOf (requestedAction firstName)).receipts ↔
      (entriesForAction (stateOf none) acme firstName = [] →
        ∀ receipt ∈ (recordOf (requestedAction firstName)).receipts.drop
          (recordOf (requestedAction firstName)).receipts.length, receipt.status = .requested) ∧
      (entriesForAction (stateOf none) acme firstName ≠ [] →
        ShowsReceipts (entriesForAction (stateOf none) acme firstName)
          (recordOf (requestedAction firstName)).receipts)) := by
  obtain ⟨entries, after, hRecord, _⟩ := requested_recorded firstName
  have hCalls : Continued acmeOptions acme firstName none (recordOf (requestedAction firstName))
      (recordOf (requestedAction firstName)) after :=
    .first rfl (acme_authorized .append) (fun _ => (by decide : 0 + 6 ≤ MAX_ENTRIES)) hRecord
  exact ⟨after, hCalls, timeline_keeps_up_iff acmeOptions [] none .start acme firstName _ _ after hCalls⟩

/-- An action is recorded when it is requested, and again when it was attempted. -/
theorem attempt_not_shown : ∃ state,
    Continued acmeOptions acme firstName none (recordOf (requestedAction firstName)) (recordOf (attemptedAction firstName))
      state ∧
    ¬ShowsReceipts (entriesForAction state acme firstName) (recordOf (attemptedAction firstName)).receipts := by
  obtain ⟨entries, after, hRecord, hOnly, hValid, hEntered, hRead⟩ := requested_recorded firstName
  have hCalls : Continued acmeOptions acme firstName none (recordOf (requestedAction firstName))
      (recordOf (requestedAction firstName)) after :=
    .first rfl (acme_authorized .append) (fun _ => (by decide : 0 + 6 ≤ MAX_ENTRIES)) hRecord
  have hEmpty : Valid (stateOf none) := Valid.empty
  have hShowing := hCalls.showing hEmpty
  obtain ⟨first, rest, hOld⟩ := List.exists_cons_of_ne_nil hShowing.stored
  have hDigest : first.actionHash = actionHash (requestedAction firstName).envelope := by
    have hFirst : first ∈ entries := by
      have hMem : first ∈ entriesForAction after acme firstName := hOld ▸ List.mem_cons_self
      exact hOnly ▸ (List.mem_filter.mp hMem).1
    obtain ⟨i, hi, rfl⟩ := List.getElem_of_mem hFirst
    exact (hEntered.get (hEntered.length_eq ▸ hi) hi).digest
  have hAgain : recordAction acmeOptions acmeAccess (recordOf (attemptedAction firstName)) (fun _ => some 0) (some after) =
      .ok (first :: rest, after) :=
    recordAction_again hValid (read_bytes hRead) (acme_authorized .append)
      (recordOf_accepted (attemptedAction_valid firstName)) hOld hDigest _
  have hExtended : (recordOf (requestedAction firstName)).receipts <+: (recordOf (attemptedAction firstName)).receipts :=
    List.prefix_append _ _
  refine ⟨after, hCalls.again rfl (acme_authorized .append) hExtended hAgain, fun hShows => ?_⟩
  have hAdded := (showsReceipts_append_iff (hShowing.made rfl)).mp hShows _ (List.mem_singleton_self _)
  cases hAdded

end GhostApi.Ledger
