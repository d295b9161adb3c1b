import GhostApi.Actions.Executions
import GhostApi.Ledger.Calls
import GhostApi.Reliability.Findings

/-!
# When retry-safe is safe

The gateway and the ledger run side by side. The ledger is told about an
action with the record that the gateway has stored, at any moment and more
than once, but it enters the record only while it has no entries of the
action. A record entered before the attempt is not completed later.
-/

namespace GhostApi.Reliability

open Js Security Validation Effect Effect.Program Storage Transition Actions Ledger

/-! ## The system -/

/-- The record that a call enters for an action of a tenant. -/
def recordsAction (options : Ledger.Options) (tenantId actionId : Identifier) : Call → Option ActionLedgerRecord
  | .recordAction access record => match authorize options access .append with
    | .ok own => if own = tenantId ∧ record.envelope.actionId = actionId then some record else none
    | .error _ => none
  | _ => none

/-- The gateway, the ledger and the record of the last call for the action. -/
structure Watched where
  gateway : Session Files Part Part.Answer JsError
  ledger : Ledger.Store
  last : Option StoredAction

inductive WatchedEvent
  | gateway (event : SessionEvent GatewayCall Choice)
  | ledger (event : Ledger.Event)

/-- A record is that of the gateway, with any reference to a credential grant. -/
def IsRecordOf (stored : StoredAction) (record : ActionLedgerRecord) : Prop :=
  record.envelope = stored.envelope ∧ record.approval = stored.approval ∧ record.receipts = stored.receipts

instance (stored : StoredAction) (record : ActionLedgerRecord) : Decidable (IsRecordOf stored record) :=
  inferInstanceAs (Decidable (_ ∧ _ ∧ _))

section System

variable (options : Ledger.Options) (tenantId actionId : Identifier)

/-- The calls for the action come with the stored record; all others are free. -/
def Watched.step (s : Watched) : WatchedEvent → Option Watched
  | .gateway event => (gatewayMachine.step s.gateway event).map ({ s with gateway := · })
  | .ledger event => match recordsAction options tenantId actionId event.call with
    | none => some { s with ledger := take options s.ledger event }
    | some record => match s.gateway.world.records actionId with
      | none => none
      | some stored =>
        if IsRecordOf stored record then
          some { s with ledger := take options s.ledger event, last := some stored }
        else none

def watchedMachine : Machine Watched WatchedEvent where
  initial := ⟨gatewayMachine.initial, none, none⟩
  step := Watched.step options tenantId actionId

end System

/-! ## Timelines -/

def Shows (core : EntryCore) : Prop := core.stage = .executionAttempt ∨ core.stage = .providerReceipt

instance (core : EntryCore) : Decidable (Shows core) := inferInstanceAs (Decidable (_ ∨ _))

def coresOf (state : ActionLedgerState) (tenantId actionId : Identifier) : List EntryCore :=
  (history tenantId state.entries).filter (·.actionId = actionId)

/-- A timeline with an attempt shows it: there is none, or it has an entry of the attempt or of its receipt. -/
def Tells (cores : List EntryCore) : Prop := cores = [] ∨ ∃ core ∈ cores, Shows core

theorem not_shows_of_retrySafe {timeline : List LedgerEntry} {providerPresent : Option Bool}
    (h : (decideOutcome (classifyIntent timeline) providerPresent).retrySafe = true) :
    ∀ entry ∈ timeline, ¬Shows entry.core := by
  have hIntent : classifyIntent timeline = .notCommitted := by
    cases hIntent : classifyIntent timeline <;> rw [hIntent] at h <;>
      rcases providerPresent with _ | _ | _ <;> first | rfl | cases h
  rw [classifyIntent] at hIntent
  split at hIntent
  · cases hIntent
  · split at hIntent
    · split at hIntent <;> cases hIntent
    · rename_i hReceipts
      split at hIntent
      · split at hIntent
        · cases hIntent
        · split at hIntent <;> cases hIntent
      · rename_i hAttempts
        have hNoAttempt : entriesAt timeline .executionAttempt = [] := List.getLast?_eq_none_iff.mp hAttempts
        rintro entry hEntry (hStage | hStage)
        · exact List.ne_nil_of_mem (List.mem_filter.mpr ⟨hEntry, decide_eq_true hStage⟩) hNoAttempt
        · exact hReceipts (List.ne_nil_of_mem (List.mem_filter.mpr ⟨hEntry, decide_eq_true hStage⟩))

theorem coresOf_eq (state : ActionLedgerState) (tenantId actionId : Identifier) :
    coresOf state tenantId actionId =
      ((entriesOf tenantId state.entries).filter (·.actionId = actionId)).map LedgerEntry.core := by
  rw [coresOf, history, List.filter_map]
  rfl

theorem retrySafe_silent {ledger : Ledger.Options} {inputs : Inputs} {ledgerStore : Ledger.Store}
    {store : Option ReconciliationState} {report : ReconciliationReport} {after : ReconciliationState}
    {tenantId actionId : Identifier} {result : ReconciliationActionResult}
    (hAccess : authorize ledger inputs.capability .exports = .ok tenantId)
    (hRun : runReconciliation ledger inputs ledgerStore store = .ok (report, after)) (hResult : result ∈ report.actions)
    (hAction : result.actionId = actionId) (hSafe : result.retrySafe = true) :
    isGovernance actionId = false ∧ ¬Tells (coresOf (stateOf ledgerStore) tenantId actionId) := by
  obtain ⟨exported, groups, hReports⟩ := runReconciliation_ok hRun
  obtain ⟨hAuthorized, hEntries, _⟩ := exportTenant_ok hReports.exports
  rw [hAccess] at hAuthorized
  obtain rfl : tenantId = exported.tenantId := Except.ok.inj hAuthorized
  obtain ⟨group, hGroup, hClassified⟩ := classifyAll_classified hReports.results result hResult
  obtain rfl : group.actionId = actionId := hClassified.actionId.symm.trans hAction
  have hTimeline : group.first :: group.rest = reported group.actionId exported.entries :=
    (timelineOf_group hReports.grouping.nodup hGroup).symm.trans (hReports.grouping.timeline group.actionId)
  have hFirst : group.first ∈ reported group.actionId exported.entries := hTimeline ▸ List.mem_cons_self
  obtain ⟨hName, hPlain⟩ := of_decide_eq_true (List.mem_filter.mp hFirst).2
  rw [hName] at hPlain
  have hCores : coresOf (stateOf ledgerStore) exported.tenantId group.actionId =
      (group.first :: group.rest).map LedgerEntry.core := by
    rw [hTimeline, coresOf_eq, ← hEntries, reported]
    refine congrArg (List.map LedgerEntry.core) (List.filter_congr fun entry _ => ?_)
    by_cases hSame : entry.actionId = group.actionId
    · simp [hSame, hPlain]
    · simp [hSame]
  rw [hClassified.retrySafe, hClassified.intent] at hSafe
  have hSilent := not_shows_of_retrySafe hSafe
  refine ⟨hPlain, ?_⟩
  rw [hCores]
  rintro (hNone | ⟨core, hCore, hShows⟩)
  · cases hNone
  · obtain ⟨entry, hEntry, rfl⟩ := List.mem_map.mp hCore
    exact hSilent entry hEntry hShows

/-! ## Rotation -/

theorem Settings.expires_mono {settings : Settings} {now later : Int} {core : EntryCore} (hLater : now ≤ later)
    (h : settings.Expires now core) : settings.Expires later core := by
  obtain ⟨days, hDays, hHold, hTime⟩ := h
  exact ⟨days, hDays, hHold, by omega⟩

/-- Rotation at a time keeps an entry that shows an attempt, or drops all of the timeline, or has nothing to show. -/
def KeepsWhole (settings : Settings) (now : Int) (cores : List EntryCore) : Prop :=
  (∃ core ∈ cores, Shows core) →
    (∃ core ∈ cores, Shows core ∧ ¬settings.Expires now core) ∨ ∀ core ∈ cores, settings.Expires now core

theorem dropped_iff {settings : Settings} {appends : List Append} :
    (∀ core, ¬Dropped settings appends core) ∨
      ∃ append ∈ appends, ∀ core, Dropped settings appends core ↔ settings.Expires append.now core := by
  induction appends with
  | nil => exact .inl fun core h => by obtain ⟨_, hMem, _⟩ := h; exact List.not_mem_nil hMem
  | cons append rest ih =>
    have hCons : ∀ core, Dropped settings (append :: rest) core ↔
        append.rotates = true ∧ settings.Expires append.now core ∨ Dropped settings rest core := fun core => by
      simp [Dropped]
    cases hRotates : append.rotates with
    | false =>
      have hSame : ∀ core, Dropped settings (append :: rest) core ↔ Dropped settings rest core := fun core => by
        rw [hCons, hRotates]
        simp
      rcases ih with hNone | ⟨last, hLast, hDropped⟩
      · exact .inl fun core h => hNone core ((hSame core).mp h)
      · exact .inr ⟨last, List.mem_cons_of_mem _ hLast, fun core => (hSame core).trans (hDropped core)⟩
    | true =>
      refine .inr ?_
      rcases ih with hNone | ⟨last, hLast, hDropped⟩
      · refine ⟨append, List.mem_cons_self, fun core => ?_⟩
        rw [hCons, hRotates]
        simp [hNone core]
      · rcases le_total append.now last.now with hOrder | hOrder
        · refine ⟨last, List.mem_cons_of_mem _ hLast, fun core => ?_⟩
          rw [hCons, hDropped]
          exact ⟨fun h => h.elim (fun h => Settings.expires_mono hOrder h.2) id, .inr⟩
        · refine ⟨append, List.mem_cons_self, fun core => ?_⟩
          rw [hCons, hDropped]
          exact ⟨fun h => h.elim And.right (Settings.expires_mono hOrder), fun h => .inl ⟨hRotates, h⟩⟩

theorem tells_rotated {settings : Settings} {appends : List Append} {cores : List EntryCore} (h : Tells cores)
    (hWhole : ∀ append ∈ appends, KeepsWhole settings append.now cores) :
    Tells (cores.filter fun core => ¬Dropped settings appends core) := by
  rcases h with rfl | ⟨shown, hShown, hShows⟩
  · exact .inl rfl
  rcases @dropped_iff settings appends with hNone | ⟨append, hAppend, hDropped⟩
  · exact .inr ⟨shown, List.mem_filter.mpr ⟨hShown, by simpa using hNone shown⟩, hShows⟩
  · rcases hWhole append hAppend ⟨shown, hShown, hShows⟩ with ⟨core, hCore, hCoreShows, hFresh⟩ | hAll
    · exact .inr ⟨core, List.mem_filter.mpr ⟨hCore, by simpa [hDropped] using hFresh⟩, hCoreShows⟩
    · refine .inl (List.filter_eq_nil_iff.mpr fun core hCore => ?_)
      simpa [hDropped] using hAll core hCore

theorem mem_replay_of {tenantId : Identifier} {settings : Settings} {appends : List Append} {entries : List EntryCore}
    {core : EntryCore} (hNew : core ∈ entries ∨ core.tenantId = tenantId ∧ ∃ append ∈ appends, append.core = core)
    (hFresh : ∀ append ∈ appends, ¬settings.Expires append.now core) :
    core ∈ appends.foldl (replay tenantId settings) entries := by
  induction appends generalizing entries with
  | nil =>
    rcases hNew with hOld | ⟨_, _, hMem, _⟩
    · exact hOld
    · cases hMem
  | cons append rest ih =>
    rw [List.forall_mem_cons] at hFresh
    rw [List.foldl_cons]
    refine ih ?_ hFresh.2
    rcases hNew with hOld | ⟨hTenant, other, hMem, hCore⟩
    · refine .inl (List.mem_append_left _ ?_)
      split
      · exact List.mem_filter.mpr ⟨hOld, by simpa using hFresh.1⟩
      · exact hOld
    · rcases List.mem_cons.mp hMem with rfl | hRest
      · refine .inl (List.mem_append_right _ ?_)
        rw [if_pos (hCore ▸ hTenant), hCore]
        exact List.mem_singleton_self core
      · exact .inr ⟨hTenant, other, hRest, hCore⟩

theorem not_expires_within {settings : Settings} {first second : Int} {core : EntryCore}
    (hTime : core.timestamp.val = Date.toISOString first) (hDay : second - first ≤ millisecondsPerDay) :
    ¬settings.Expires second core := by
  rintro ⟨days, _, _, hExpired⟩
  have hDays : (1 : Int) ≤ days.val := by exact_mod_cast days.property.1
  rw [timeOf_eq hTime] at hExpired
  rw [millisecondsPerDay] at *
  omega

/-! ## Steps -/

section Steps

variable {options : Ledger.Options} {tenantId actionId : Identifier} {call : Call} {operation : Operation} {clock : Clock}
  {state state' : ActionLedgerState}

def HasRoom (state : ActionLedgerState) (call : Call) : Prop := state.entries.length + call.size ≤ MAX_ENTRIES

theorem mem_coresOf {core : EntryCore} : core ∈ coresOf state tenantId actionId ↔
    core.actionId = actionId ∧ core.tenantId = tenantId ∧ ∃ entry ∈ state.entries, entry.core = core := by
  rw [coresOf, List.mem_filter, mem_history, decide_eq_true_eq, and_comm]

theorem settings_after (h : Valid state) (hCall : call.operation options = .ok operation)
    (hRun : operation.run clock state = (.ok (), state')) :
    settingsOf tenantId state'.tenants = call.settings options tenantId (settingsOf tenantId state.tenants) := by
  by_cases hOwn : tenantId = operation.tenantId
  · rw [hOwn]
    exact operation_settings h hCall hRun
  · obtain ⟨_, _, hEffects⟩ := operation_ok h hCall hRun
    rw [hEffects.settings tenantId hOwn]
    cases call with
    | recordAction access record => rfl
    | configureRetention access retentionDays =>
      obtain ⟨own, hAccess, hCall⟩ := bind_eq_ok hCall
      obtain ⟨days, hDays, hCall⟩ := bind_eq_ok hCall
      cases hCall
      simp [Call.settings, hAccess, hDays, Ne.symm hOwn]
    | setLegalHold access active =>
      obtain ⟨own, hAccess, hCall⟩ := bind_eq_ok hCall
      obtain ⟨held, hHeld, hCall⟩ := bind_eq_ok hCall
      cases hCall
      simp [Call.settings, hAccess, hHeld, Ne.symm hOwn]
    | requestDeletion access => rfl

theorem coresOf_after (hPlain : isGovernance actionId = false) (h : Valid state)
    (hOther : recordsAction options tenantId actionId call = none) (hCall : call.operation options = .ok operation)
    (hRun : operation.run clock state = (.ok (), state')) :
    ∃ appends : List Append, (∀ append ∈ appends, append.MadeBy operation.tenantId clock) ∧
      coresOf state' tenantId actionId = (coresOf state tenantId actionId).filter fun core =>
        ¬Dropped (settingsOf tenantId state'.tenants) appends core := by
  obtain ⟨appends, hNames, hEffects⟩ := operation_ok h hCall hRun
  refine ⟨appends, hEffects.made, ?_⟩
  have hNone : (appends.foldl (replay tenantId (settingsOf tenantId state'.tenants)) []).filter
      (·.actionId = actionId) = [] := by
    refine List.filter_eq_nil_iff.mpr fun core hCore => ?_
    rw [decide_eq_true_eq]
    rintro rfl
    rcases mem_replay hCore with hNil | ⟨append, hAppend, rfl⟩
    · cases hNil
    rcases hNames append hAppend with ⟨kind, governed, hName⟩ | hName
    · rw [isGovernance_of hName] at hPlain
      cases hPlain
    · have hTenant : operation.tenantId = tenantId := by
        have hAfter : append.core ∈ history tenantId state'.entries := by
          rw [hEffects.histories, replay_all]
          exact List.mem_append_right _ hCore
        exact (hEffects.made append hAppend).own.symm.trans (mem_history.mp hAfter).1
      cases call with
      | recordAction access record =>
        obtain ⟨own, hAccess, hCall⟩ := bind_eq_ok hCall
        obtain ⟨normalized, _, hCall⟩ := bind_eq_ok hCall
        cases hCall
        have hAction : record.envelope.actionId = append.core.actionId := Option.some.inj hName
        simp [recordsAction, hAccess, hAction, show own = tenantId from hTenant] at hOther
      | configureRetention access retentionDays => cases hName
      | setLegalHold access active => cases hName
      | requestDeletion access => cases hName
  rw [coresOf, hEffects.histories, replay_all, List.filter_append, hNone, List.append_nil, coresOf, List.filter_filter,
    List.filter_filter]
  refine List.filter_congr fun core _ => ?_
  rw [Bool.and_comm]

theorem coresOf_room (hCall : call.operation options = .ok operation) (hRun : operation.run clock state = (.ok (), state'))
    (hRoom : HasRoom state call) : ∀ core ∈ coresOf state tenantId actionId, core ∈ coresOf state' tenantId actionId := by
  intro core hCore
  obtain ⟨hAction, hTenant, entry, hEntry, hSame⟩ := mem_coresOf.mp hCore
  obtain ⟨entries, _, hEntries⟩ := operation_grows clock hCall state state' () hRoom hRun
  refine mem_coresOf.mpr ⟨hAction, hTenant, entry, ?_, hSame⟩
  rw [hEntries]
  exact List.mem_append_left _ hEntry

theorem tells_after (hPlain : isGovernance actionId = false) (h : Valid state)
    (hOther : recordsAction options tenantId actionId call = none) (hCall : call.operation options = .ok operation)
    (hRun : operation.run clock state = (.ok (), state')) (hTells : Tells (coresOf state tenantId actionId))
    (hCare : HasRoom state call ∨ ∀ n now, clock n = some now →
      KeepsWhole (call.settings options tenantId (settingsOf tenantId state.tenants)) now
        (coresOf state tenantId actionId)) : Tells (coresOf state' tenantId actionId) := by
  obtain ⟨appends, hMade, hCores⟩ := coresOf_after hPlain h hOther hCall hRun
  rcases hCare with hRoom | hWhole
  · rcases hTells with hNone | ⟨core, hCore, hShows⟩
    · rw [hCores, hNone]
      exact .inl rfl
    · exact .inr ⟨core, coresOf_room hCall hRun hRoom core hCore, hShows⟩
  · rw [hCores, settings_after h hCall hRun]
    refine tells_rotated hTells fun append hAppend => ?_
    obtain ⟨n, hReading⟩ := (hMade append hAppend).read
    exact hWhole n append.now hReading

theorem shows_of_attempted {record : ActionLedgerRecord}
    (h : .attempted ∈ record.receipts.map (·.status)) :
    ∃ evidence ∈ record.evidence, evidence.stage = .executionAttempt := by
  obtain ⟨receipt, hReceipt, hStatus⟩ := List.mem_map.mp h
  refine ⟨attemptEvidence "attempted" receipt, ?_, rfl⟩
  rw [ActionLedgerRecord.evidence]
  refine List.mem_append_left _ (List.mem_append_right _ (List.mem_flatMap.mpr ⟨receipt, hReceipt, ?_⟩))
  rw [receiptEvidence, hStatus]
  exact List.mem_singleton_self _

theorem tells_recorded {record : ActionLedgerRecord} {entries : List LedgerEntry} (h : Valid state)
    (hRun : recordActionOp tenantId record clock state = (.ok entries, state'))
    (hAttempted : .attempted ∈ record.receipts.map (·.status))
    (hTells : Tells (coresOf state tenantId record.envelope.actionId))
    (hCare : state.entries.length + record.evidence.length ≤ MAX_ENTRIES ∨ ∀ m n first second,
      clock m = some first → clock n = some second → second - first ≤ millisecondsPerDay) :
    Tells (coresOf state' tenantId record.envelope.actionId) := by
  rcases recordActionOp_ok h hRun with ⟨_, rfl⟩ | ⟨hNew, appends, hMade, hRecords, hAdvances⟩
  · exact hTells
  obtain ⟨evidence, hEvidence, hStage⟩ := shows_of_attempted hAttempted
  obtain ⟨i, hi, rfl⟩ := List.getElem_of_mem hEvidence
  rcases hCare with hRoom | hDay
  · rw [recordActionOp, Mutation.get_bind, hNew] at hRun
    obtain ⟨hStored, _, hEntered⟩ := appendAll_stored h hRoom hRun
    have hEntry := hEntered.get hi (hEntered.length_eq ▸ hi)
    refine .inr ⟨_, mem_coresOf.mpr ⟨hEntry.action, hEntry.tenant, _, ?_, rfl⟩, .inl (hEntry.stage.trans hStage)⟩
    rw [hStored]
    exact List.mem_append_right _ (List.getElem_mem _)
  · have hAppend := hRecords.get hi (hRecords.length_eq ▸ hi)
    have hMem : appends.get ⟨i, hRecords.length_eq ▸ hi⟩ ∈ appends := List.getElem_mem _
    obtain ⟨hOwn, ⟨m, hReading⟩, hTime⟩ := hMade _ hMem
    refine .inr ⟨_, List.mem_filter.mpr ⟨?_, decide_eq_true hAppend.action⟩, .inl (hAppend.stage.trans hStage)⟩
    rw [hAdvances.histories]
    refine mem_replay_of (.inr ⟨hOwn, _, hMem, rfl⟩) fun later hLater => ?_
    obtain ⟨_, ⟨n, hLaterReading⟩, _⟩ := hMade later hLater
    exact not_expires_within hTime (hDay m n _ _ hReading hLaterReading)

end Steps

/-! ## Runs -/

section Runs

variable (options : Ledger.Options) (tenantId actionId : Identifier)

/-- A call for the action finds no entries of it, or some that show an attempt, or has no attempt to tell of. No rotation
takes the entries that show an attempt from others of the action. -/
def Careful (s : Watched) : WatchedEvent → Prop
  | .gateway _ => True
  | .ledger event =>
    match recordsAction options tenantId actionId event.call with
    | some record =>
      (.attempted ∈ record.receipts.map (·.status) → Tells (coresOf (stateOf s.ledger) tenantId actionId)) ∧
      (HasRoom (stateOf s.ledger) event.call ∨ ∀ m n first second,
        event.clock m = some first → event.clock n = some second → second - first ≤ millisecondsPerDay)
    | none => HasRoom (stateOf s.ledger) event.call ∨ ∀ n now, event.clock n = some now →
        KeepsWhole (event.call.settings options tenantId (settingsOf tenantId (stateOf s.ledger).tenants)) now
          (coresOf (stateOf s.ledger) tenantId actionId)

/-- What the last call for the action told the ledger of an attempt is still told. -/
structure Told (s : Watched) : Prop where
  valid : Valid (stateOf s.ledger)
  told : isGovernance actionId = false → ∀ record, s.last = some record → .attempted ∈ record.word →
    Tells (coresOf (stateOf s.ledger) tenantId actionId)

end Runs

section Runs

variable {options : Ledger.Options} {tenantId actionId : Identifier}

theorem take_valid {store : Ledger.Store} (h : Valid (stateOf store)) (event : Ledger.Event) :
    Valid (stateOf (take options store event)) := by
  rw [take]
  split
  · exact h
  · rename_i state hPerform
    obtain ⟨operation, hCall, hRun⟩ := perform_ok hPerform
    obtain ⟨_, _, hEffects⟩ := operation_ok h hCall hRun
    exact hEffects.valid

theorem told_other {s : Watched} {event : Ledger.Event} (h : Told tenantId actionId s)
    (hOther : recordsAction options tenantId actionId event.call = none)
    (hCare : Careful options tenantId actionId s (.ledger event)) :
    Told tenantId actionId { s with ledger := take options s.ledger event } := by
  refine ⟨take_valid h.valid event, fun hPlain record hLast hAttempted => ?_⟩
  have hTells := h.told hPlain record hLast hAttempted
  simp only [Careful, hOther] at hCare
  dsimp only
  rw [take]
  split
  · exact hTells
  · rename_i state hPerform
    obtain ⟨operation, hCall, hRun⟩ := perform_ok hPerform
    exact tells_after hPlain h.valid hOther hCall hRun hTells hCare

theorem recordsAction_eq_some {call : Call} {record : ActionLedgerRecord}
    (h : recordsAction options tenantId actionId call = some record) :
    ∃ access, call = .recordAction access record ∧ authorize options access .append = .ok tenantId ∧
      record.envelope.actionId = actionId := by
  cases call with
  | recordAction access own =>
    rw [recordsAction] at h
    split at h
    · rename_i tenant hAccess
      split at h
      · rename_i hSame
        cases h
        exact ⟨access, rfl, hSame.1 ▸ hAccess, hSame.2⟩
      · cases h
    · cases h
  | configureRetention access retentionDays => cases h
  | setLegalHold access active => cases h
  | requestDeletion access => cases h

theorem told_recorded {s : Watched} {event : Ledger.Event} {record : ActionLedgerRecord} {stored : StoredAction}
    (h : Told tenantId actionId s) (hOwn : recordsAction options tenantId actionId event.call = some record)
    (hRecord : IsRecordOf stored record) (hCare : Careful options tenantId actionId s (.ledger event)) :
    Told tenantId actionId { s with ledger := take options s.ledger event, last := some stored } := by
  refine ⟨take_valid h.valid event, fun _ last hLast hAttempted => ?_⟩
  cases hLast
  obtain ⟨access, hCall, hAccess, hAction⟩ := recordsAction_eq_some hOwn
  simp only [Careful, hOwn] at hCare
  have hReceipts : .attempted ∈ record.receipts.map (·.status) := by
    rw [hRecord.2.2]
    exact hAttempted
  have hTells := hCare.1 hReceipts
  dsimp only
  rw [take]
  split
  · exact hTells
  · rename_i state hPerform
    obtain ⟨operation, hOperation, hRun⟩ := perform_ok hPerform
    rw [hCall] at hOperation hCare
    obtain ⟨own, hAuthorized, hOperation⟩ := bind_eq_ok hOperation
    obtain ⟨normalized, hNormal, hOperation⟩ := bind_eq_ok hOperation
    rw [normalizeActionRecord_ok hNormal] at hOperation
    obtain rfl : own = tenantId := Except.ok.inj (hAuthorized.symm.trans hAccess)
    cases hOperation
    obtain ⟨entries, hRun⟩ := Mutation.discard_ok hRun
    rw [← hAction] at hTells ⊢
    exact tells_recorded h.valid hRun hReceipts hTells hCare.2

theorem told_run {events : List WatchedEvent} {s : Watched}
    (run : (watchedMachine options tenantId actionId).Run (Careful options tenantId actionId) events s) :
    Told tenantId actionId s := by
  refine run.invariant ?_ fun s event after hTold hCare hTaken => ?_
  · exact ⟨Valid.empty, fun _ _ hLast => nomatch hLast⟩
  · cases event with
    | gateway event =>
      obtain ⟨gateway, _, rfl⟩ := Option.map_eq_some_iff.mp hTaken
      exact ⟨hTold.valid, hTold.told⟩
    | ledger event =>
      change (match recordsAction options tenantId actionId event.call with
        | none => _
        | some record => _) = some after at hTaken
      split at hTaken
      · rename_i hOther
        cases hTaken
        exact told_other hTold hOther hCare
      · rename_i record hOwn
        split at hTaken
        · cases hTaken
        · rename_i stored _
          split at hTaken
          · rename_i hRecord
            cases hTaken
            exact told_recorded hTold hOwn hRecord hCare
          · cases hTaken

end Runs

/-- A reconciliation of the tenant right now does not call an attempted action safe to retry if the ledger was told last
of the record that is stored. -/
def RetrySafeIsSafe (options : Ledger.Options) (tenantId actionId : Identifier) (s : Watched) : Prop :=
  ∀ stored, s.gateway.world.records actionId = some stored → s.last = some stored →
    ∀ inputs store report after, authorize options inputs.capability .exports = .ok tenantId →
      inputs.provider.resolveWorld actionId stored.actionHash = .ok (some stored.envelope.worldId.val) →
      runReconciliation options inputs s.ledger store = .ok (report, after) →
      ∀ result ∈ report.actions, result.actionId = actionId → result.retrySafe = true →
        .attempted ∉ stored.receipts.map (·.status)

theorem retry_safe_when_told_first (options : Ledger.Options) (tenantId actionId : Identifier) (events : List WatchedEvent)
    (s : Watched) (run : (watchedMachine options tenantId actionId).Run (Careful options tenantId actionId) events s) :
    RetrySafeIsSafe options tenantId actionId s := by
  intro stored _ hLast inputs store report after hAccess _ hRun result hResult hAction hSafe hAttempted
  obtain ⟨hPlain, hSilent⟩ := retrySafe_silent hAccess hRun hResult hAction hSafe
  exact hSilent ((told_run run).told hPlain stored hLast hAttempted)

/-! ## A record from before the attempt -/

section Runs

variable {guard : Watched → WatchedEvent → Prop} {past : List WatchedEvent} {s : Watched}

theorem watched_gateway {options : Ledger.Options} {tenantId actionId : Identifier}
    (run : (watchedMachine options tenantId actionId).Run guard past s) (allowed : ∀ s event, guard s (.gateway event))
    {events : List (SessionEvent GatewayCall Choice)} {gateway : Session Files Part Part.Answer JsError}
    (rest : (gatewayMachine.resume s.gateway).FreeRun events gateway) :
    (watchedMachine options tenantId actionId).Run guard (past ++ events.map .gateway) { s with gateway } := by
  induction rest with
  | start => simpa [Machine.resume] using run
  | @next events before after event _ _ taken ih =>
    rw [List.map_append, ← List.append_assoc]
    refine ih.next (allowed _ event) ?_
    change (gatewayMachine.step before event).map _ = _
    rw [show gatewayMachine.step before event = some after from taken]
    rfl

def recordingOf (stored : StoredAction) : WatchedEvent :=
  .ledger ⟨.recordAction acmeAccess (recordOf stored), fun _ => some 0⟩

theorem recordsAction_recordOf (stored : StoredAction) :
    recordsAction acmeOptions acme stored.envelope.actionId (.recordAction acmeAccess (recordOf stored)) =
      some (recordOf stored) := by
  rw [recordsAction, acme_authorized .append]
  exact if_pos ⟨rfl, rfl⟩

theorem watched_recorded {stored : StoredAction} {entries : List LedgerEntry} {after : ActionLedgerState}
    (run : (watchedMachine acmeOptions acme stored.envelope.actionId).Run guard past s)
    (allowed : guard s (recordingOf stored)) (hStored : s.gateway.world.records stored.envelope.actionId = some stored)
    (hValid : Valid after)
    (hRecord : recordAction acmeOptions acmeAccess (recordOf stored) (fun _ => some 0) s.ledger = .ok (entries, after)) :
    (watchedMachine acmeOptions acme stored.envelope.actionId).Run guard (past ++ [recordingOf stored])
      { s with ledger := some after, last := some stored } := by
  refine run.next allowed ?_
  have hTaken : take acmeOptions s.ledger ⟨.recordAction acmeAccess (recordOf stored), fun _ => some 0⟩ = some after := by
    rw [take, perform_recordAction (acme_authorized .append) hValid hRecord]
  change Watched.step acmeOptions acme stored.envelope.actionId s (recordingOf stored) = _
  rw [recordingOf, Watched.step]
  simp only [recordsAction_recordOf, hStored, hTaken]
  exact if_pos ⟨rfl, rfl, rfl⟩

end Runs

/-- The provider knows the world of every action and has no receipt. -/
def emptyWorld : ReconciliationProvider := ⟨fun _ _ => .ok (some firstName.val), fun _ _ => .ok (some [])⟩

def emptyWorldInputs : Inputs := { acmeInputs with provider := emptyWorld }

theorem emptyWorld_ready : Ready acmeOptions emptyWorldInputs acme none ⟨none, []⟩ :=
  { acme_ready with answers := ⟨fun _ _ => ⟨_, rfl⟩, fun _ _ => ⟨_, rfl⟩⟩ }

/-- Once the requested action is recorded, a reconciliation calls it safe to retry. -/
theorem requested_retrySafe {after : ActionLedgerState} {events : List Ledger.Event} {digest : Hash}
    (run : (machine acmeOptions).FreeRun events (some after)) (hBytes : Ledger.format.bytes after ≤ Ledger.format.maxBytes)
    (hEntered : List.Forall₂ (Entered acme firstName digest) (recordOf (requestedAction firstName)).evidence
      after.entries) :
    ∃ report state, runReconciliation acmeOptions emptyWorldInputs (some after) none = .ok (report, state) ∧
      ∃ result ∈ report.actions, result.actionId = firstName ∧ result.retrySafe = true := by
  obtain ⟨report, state, exported, groups, hRun, hReports⟩ :=
    requested_run run hBytes hEntered emptyWorld_ready (by decide)
  obtain ⟨_, ⟨result, hResult⟩, hResults⟩ := requested_report (acme_authorized .exports) hEntered hReports
  obtain ⟨hIntent, _, first, rest, hClassify⟩ := hResults result hResult
  obtain ⟨_, worldId, hWorld, hPresent⟩ := classify_present hClassify
  cases hWorld
  have hAbsent : result.providerPresent = some false := (Except.ok.inj hPresent).symm
  refine ⟨report, state, hRun, result, hResult, (classify_ok hClassify).actionId, ?_⟩
  rw [(classify_ok hClassify).retrySafe, hIntent, hAbsent]
  rfl

/-- The action is submitted, and recorded. -/
theorem first_recorded_run : ∃ events after, (watchedMachine acmeOptions acme firstName).Run
      (Careful acmeOptions acme firstName) events ⟨⟨firstSubmitted, none⟩, some after, some firstRequested⟩ ∧
    Valid after ∧ Ledger.format.bytes after ≤ Ledger.format.maxBytes ∧
    List.Forall₂ (Entered acme firstName firstRequested.actionHash) (recordOf (requestedAction firstName)).evidence
      after.entries ∧
    ∃ events, (machine acmeOptions).FreeRun events (some after) := by
  obtain ⟨events, submitted⟩ := first_submitted
  have hValid : firstRequested.Valid := gateway_scripted.smallRequested_valid firstName []
  obtain ⟨entries, after, hRecord, rfl, hAfter, hEntered, hRead⟩ :=
    new_recorded hValid (by decide : (1 : Nat) < 10 ^ 9) (by decide : 6 ≤ 100)
  have hSubmitted : (watchedMachine acmeOptions acme firstName).Run (Careful acmeOptions acme firstName)
      (events.map .gateway) ⟨⟨firstSubmitted, none⟩, none, none⟩ :=
    @watched_gateway _ [] ⟨gatewayMachine.initial, none, none⟩ _ _ _ .start (fun _ _ => trivial) _ _
      (submitted.mono fun _ _ _ => trivial)
  have hCare : Careful acmeOptions acme firstName ⟨⟨firstSubmitted, none⟩, none, none⟩ (recordingOf firstRequested) := by
    have hOwn : recordsAction acmeOptions acme firstName (.recordAction acmeAccess (recordOf firstRequested)) =
      some (recordOf firstRequested) := recordsAction_recordOf firstRequested
    simp only [Careful, recordingOf, hOwn]
    refine ⟨fun hAttempted => ?_, .inl (by decide : 0 + 6 ≤ MAX_ENTRIES)⟩
    cases List.mem_singleton.mp hAttempted
  have hStored : firstSubmitted.records firstName = some firstRequested := by simp [firstSubmitted, Files.store]
  have hPerform := perform_recordAction (acme_authorized .append) hAfter hRecord
  refine ⟨_, after, @watched_recorded _ _ _ firstRequested _ _ hSubmitted hCare hStored hAfter hRecord, hAfter,
    read_bytes hRead, hEntered, [⟨.recordAction acmeAccess (recordOf firstRequested), fun _ => some 0⟩], ?_⟩
  refine Machine.freeRun_of_exec ?_
  change some (take acmeOptions none _) = _
  rw [take, hPerform]

/-- The action is recorded before it is executed and again afterwards. -/
theorem attempt_called_retry_safe : ∃ events s, (watchedMachine acmeOptions acme firstName).FreeRun events s ∧
    ¬RetrySafeIsSafe acmeOptions acme firstName s := by
  obtain ⟨recording, after, recorded, hValid, hBytes, hEntered, _, hLedger⟩ := first_recorded_run
  obtain ⟨files, _, hStored, executing, executed⟩ := first_executed
  have hExecuted := @watched_gateway (fun _ _ => True) _ _ _ _ _ (recorded.mono fun _ _ _ => trivial)
    (fun _ _ => trivial) _ _ (executed.mono fun _ _ _ => trivial)
  obtain ⟨hLength, hOwn⟩ := requested_entry hEntered
  have hAll : entriesForAction after acme firstName = after.entries := by
    refine List.filter_eq_self.mpr fun entry hEntry => decide_eq_true ?_
    exact ⟨(hOwn entry hEntry).1, (hOwn entry hEntry).2.1⟩
  obtain ⟨first, rest, hEntries⟩ := List.exists_cons_of_ne_nil (List.ne_nil_of_length_pos (by omega : 0 < after.entries.length))
  have hDigest : first.actionHash = actionHash firstVerified.envelope :=
    (hOwn first (hEntries ▸ List.mem_cons_self)).2.2
  have hAgain := recordAction_again hValid hBytes (acme_authorized .append) (recordOf_accepted firstVerified_valid)
    (hAll.trans hEntries) hDigest fun _ => some 0
  have hTwice := @watched_recorded _ _ _ firstVerified _ _ hExecuted trivial hStored hValid hAgain
  refine ⟨_, _, hTwice, fun hSafe => ?_⟩
  obtain ⟨report, state, hRun, result, hResult, hAction, hRetry⟩ := requested_retrySafe hLedger hBytes hEntered
  refine hSafe firstVerified hStored rfl emptyWorldInputs none report state (acme_authorized .exports) rfl hRun result
    hResult hAction hRetry ?_
  exact List.mem_cons_of_mem _ List.mem_cons_self

theorem retry_safe_before_attempt : ∃ events s report state, (watchedMachine acmeOptions acme firstName).Run
      (Careful acmeOptions acme firstName) events s ∧ s.last = some firstRequested ∧
    runReconciliation acmeOptions emptyWorldInputs s.ledger none = .ok (report, state) ∧
    (∃ result ∈ report.actions, result.actionId = firstName ∧ result.retrySafe = true) ∧
    .attempted ∉ firstRequested.receipts.map (·.status) := by
  obtain ⟨events, after, run, _, hBytes, hEntered, _, hLedger⟩ := first_recorded_run
  obtain ⟨report, state, hRun, result, hResult, hAction, hRetry⟩ := requested_retrySafe hLedger hBytes hEntered
  have hStored : firstSubmitted.records firstName = some firstRequested := by simp [firstSubmitted, Files.store]
  have hSafe := retry_safe_when_told_first acmeOptions acme firstName events _ run firstRequested hStored rfl
    emptyWorldInputs none report state (acme_authorized .exports) rfl hRun result hResult hAction hRetry
  exact ⟨events, _, report, state, run, rfl, hRun, ⟨result, hResult, hAction, hRetry⟩, hSafe⟩

end GhostApi.Reliability
