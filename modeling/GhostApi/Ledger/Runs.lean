import GhostApi.Ledger.Retention
import GhostApi.Ledger.Validity

/-!
# What holds in every run of the ledger

The chains of all tenants stay intact, rotation drops expired entries only,
and each entry has the name of a recorded action or of a governance operation.
-/

namespace GhostApi.Ledger

open Js Validation Effect Effect.Mutation Actions Storage Transition

def Call.recorded : Call → Option Identifier
  | .recordAction _ record => some record.envelope.actionId
  | _ => none

theorem normalizeActionRecord_ok {record record' : ActionLedgerRecord} (h : normalizeActionRecord record = .ok record') :
    record' = record := by
  obtain ⟨stored, hStored, h⟩ := bind_eq_ok h
  obtain ⟨_, rfl⟩ := validateStoredAction_eq_ok.mp hStored
  cases h
  rfl

section Operations

variable {options : Options} {call : Call} {operation : Operation} {clock : Clock} {state state' : ActionLedgerState}

/-- The kind and the stage of the entry that a governance call appends. -/
def Call.governance : Call → Option (String × LedgerStage)
  | .recordAction _ _ => none
  | .configureRetention _ _ => some ("retention", .retention)
  | .setLegalHold _ _ => some ("hold", .legalHold)
  | .requestDeletion _ => some ("deletion", .deletionRequest)

/-- The appends that a call makes: the evidence of a new action, an entry of governance, or none. -/
inductive Makes (tenantId : Identifier) (state : ActionLedgerState) : Call → List Append → Prop
  | nothing (call : Call) : Makes tenantId state call []
  | evidence (access : JsValue) (record : ActionLedgerRecord) {appends : List Append}
      (new : entriesForAction state tenantId record.envelope.actionId = [])
      (records : List.Forall₂ (fun evidence append =>
        append.Records record.envelope.actionId (actionHash record.envelope) evidence) record.evidence appends) :
      Makes tenantId state (.recordAction access record) appends
  | governance {call : Call} {kind : String} {stage : LedgerStage} {append : Append}
      (named : call.governance = some (kind, stage)) (governance : append.Governance tenantId kind stage state) :
      Makes tenantId state call [append]

theorem operation_makes (h : Valid state) (hCall : call.operation options = .ok operation)
    (hRun : operation.run clock state = (.ok (), state')) :
    ∃ appends, Makes operation.tenantId state call appends ∧ Effects operation.tenantId clock appends state state' := by
  cases call with
  | recordAction access record =>
    obtain ⟨tenantId, _, hCall⟩ := bind_eq_ok hCall
    obtain ⟨normalized, hRecord, hCall⟩ := bind_eq_ok hCall
    rw [normalizeActionRecord_ok hRecord] at hCall
    cases hCall
    obtain ⟨entries, hRun⟩ := discard_ok hRun
    rcases recordActionOp_ok h hRun with ⟨_, rfl⟩ | ⟨hNew, appends, hMade, hRecords, hAdvances⟩
    · exact ⟨[], .nothing _, (Advances.refl h).effects fun _ h => (List.not_mem_nil h).elim⟩
    · exact ⟨appends, .evidence access record hNew hRecords, hAdvances.effects hMade⟩
  | configureRetention access retentionDays =>
    obtain ⟨tenantId, _, hCall⟩ := bind_eq_ok hCall
    obtain ⟨days, _, hCall⟩ := bind_eq_ok hCall
    cases hCall
    obtain ⟨tenant, hRun⟩ := discard_ok hRun
    obtain ⟨append, hGovernance, hEffects⟩ := configureRetentionOp_ok h hRun
    exact ⟨[append], .governance rfl hGovernance, hEffects⟩
  | setLegalHold access active =>
    obtain ⟨tenantId, _, hCall⟩ := bind_eq_ok hCall
    obtain ⟨active, _, hCall⟩ := bind_eq_ok hCall
    cases hCall
    obtain ⟨tenant, hRun⟩ := discard_ok hRun
    obtain ⟨append, hGovernance, hEffects⟩ := setLegalHoldOp_ok h hRun
    exact ⟨[append], .governance rfl hGovernance, hEffects⟩
  | requestDeletion access =>
    obtain ⟨tenantId, _, hCall⟩ := bind_eq_ok hCall
    cases hCall
    obtain ⟨tenant, hRun⟩ := discard_ok hRun
    obtain ⟨appends, hMade, hAdvances, hAppends⟩ := requestDeletionOp_ok h hRun
    refine ⟨appends, ?_, hAdvances.effects hMade⟩
    rcases hAppends with rfl | ⟨append, hGovernance, rfl⟩
    · exact .nothing _
    · exact .governance rfl hGovernance

theorem Makes.names {tenantId : Identifier} {appends : List Append} (h : Makes tenantId state call appends) :
    ∀ append ∈ appends, append.Governs tenantId ∨ call.recorded = some append.core.actionId := by
  cases h with
  | nothing => exact fun _ h => (List.not_mem_nil h).elim
  | evidence access record hNew hRecords =>
    intro append hAppend
    obtain ⟨i, hi, rfl⟩ := List.getElem_of_mem hAppend
    have hAction := (hRecords.get (hRecords.length_eq ▸ hi) hi).action
    exact .inr (congrArg some hAction.symm)
  | governance hNamed hGovernance => exact List.forall_mem_singleton.mpr (.inl hGovernance.governs)

theorem operation_ok (h : Valid state) (hCall : call.operation options = .ok operation)
    (hRun : operation.run clock state = (.ok (), state')) :
    ∃ appends : List Append,
      (∀ append ∈ appends, append.Governs operation.tenantId ∨ call.recorded = some append.core.actionId) ∧
      Effects operation.tenantId clock appends state state' := by
  obtain ⟨appends, hMakes, hEffects⟩ := operation_makes h hCall hRun
  exact ⟨appends, hMakes.names, hEffects⟩

theorem perform_ok {store : Store} (h : perform options call clock store = .ok state') :
    ∃ operation, call.operation options = .ok operation ∧ operation.run clock (stateOf store) = (.ok (), state') := by
  obtain ⟨operation, hCall, h⟩ := bind_eq_ok h
  obtain ⟨⟨_, after⟩, hUpdate, h⟩ := bind_eq_ok h
  cases h
  exact ⟨operation, hCall, (format_accepts.update_ok hUpdate).1⟩

end Operations

theorem run_valid {options : Options} {events : List Event} {store : Store}
    (run : (machine options).FreeRun events store) : Valid (stateOf store) := by
  have hInitial : Valid (stateOf (machine options).initial) := Valid.empty
  refine run.invariant (I := fun store => Valid (stateOf store)) hInitial fun store event after hValid _ hTaken => ?_
  cases hTaken
  rw [take]
  split
  · exact hValid
  · rename_i state hPerform
    obtain ⟨operation, hCall, hRun⟩ := perform_ok hPerform
    obtain ⟨_, _, hEffects⟩ := operation_ok hValid hCall hRun
    exact hEffects.valid

/-! ## Names -/

structure RecordedBy (options : Options) (store : Store) (event : Event) (tenantId actionId : Identifier) : Prop where
  written : ∃ after, perform options event.call event.clock store = .ok after
  tenant : ∃ operation, event.call.operation options = .ok operation ∧ operation.tenantId = tenantId
  action : event.call.recorded = some actionId

def Recorded (options : Options) (events : List Event) (tenantId actionId : Identifier) : Prop :=
  ∃ before event after store, events = before ++ event :: after ∧ (machine options).FreeRun before store ∧
    RecordedBy options store event tenantId actionId

theorem Recorded.later {options : Options} {events : List Event} {tenantId actionId : Identifier}
    (h : Recorded options events tenantId actionId) (event : Event) :
    Recorded options (events ++ [event]) tenantId actionId := by
  obtain ⟨before, recording, after, store, rfl, hRun, hRecorded⟩ := h
  exact ⟨before, recording, after ++ [event], store, by simp, hRun, hRecorded⟩

theorem mem_replay {tenantId : Identifier} {settings : Settings} {appends : List Append} {entries : List EntryCore}
    {core : EntryCore} (h : core ∈ appends.foldl (replay tenantId settings) entries) :
    core ∈ entries ∨ ∃ append ∈ appends, append.core = core := by
  induction appends generalizing entries with
  | nil => exact .inl h
  | cons append rest ih =>
    rcases ih h with hMem | ⟨later, hLater, hCore⟩
    · rw [replay, List.mem_append] at hMem
      rcases hMem with hOld | hNew
      · refine .inl ?_
        split at hOld
        · exact (List.mem_filter.mp hOld).1
        · exact hOld
      · split at hNew
        · exact .inr ⟨append, List.mem_cons_self, (List.mem_singleton.mp hNew).symm⟩
        · cases hNew
    · exact .inr ⟨later, List.mem_cons_of_mem _ hLater, hCore⟩

theorem mem_history {tenantId : Identifier} {core : EntryCore} {entries : List LedgerEntry} :
    core ∈ history tenantId entries ↔ core.tenantId = tenantId ∧ ∃ entry ∈ entries, entry.core = core := by
  rw [history, List.mem_map]
  constructor
  · rintro ⟨entry, hEntry, rfl⟩
    obtain ⟨hEntry, hId⟩ := mem_entriesOf.mp hEntry
    exact ⟨hId, entry, hEntry, rfl⟩
  · rintro ⟨hId, entry, hEntry, rfl⟩
    exact ⟨entry, mem_entriesOf.mpr ⟨hEntry, hId⟩, rfl⟩

theorem entry_named {options : Options} {events : List Event} {store : Store}
    (run : (machine options).FreeRun events store) : ∀ entry ∈ (stateOf store).entries,
    (∃ kind state, entry.actionId.val = governanceActionId kind state entry.tenantId) ∨
      Recorded options events entry.tenantId entry.actionId := by
  induction run with
  | start => exact fun _ h => (List.not_mem_nil h).elim
  | @next events store after event before _ taken ih =>
    have hKept : ∀ entry ∈ (stateOf store).entries,
        (∃ kind state, entry.actionId.val = governanceActionId kind state entry.tenantId) ∨
          Recorded options (events ++ [event]) entry.tenantId entry.actionId :=
      fun entry hEntry => (ih entry hEntry).imp_right (Recorded.later · event)
    cases taken
    rw [take]
    split
    · exact hKept
    · rename_i state hPerform
      intro entry hEntry
      obtain ⟨operation, hCall, hRun⟩ := perform_ok hPerform
      obtain ⟨appends, hNames, hEffects⟩ := operation_ok (run_valid before) hCall hRun
      have hCore : entry.core ∈ history entry.tenantId state.entries := mem_history.mpr ⟨rfl, entry, hEntry, rfl⟩
      rw [hEffects.histories] at hCore
      rcases mem_replay hCore with hOld | ⟨append, hAppend, hSame⟩
      · obtain ⟨_, old, hOld, hSame⟩ := mem_history.mp hOld
        have hTenant : old.tenantId = entry.tenantId := congrArg EntryCore.tenantId hSame
        have hAction : old.actionId = entry.actionId := congrArg EntryCore.actionId hSame
        rw [← hTenant, ← hAction]
        exact hKept old hOld
      · have hTenant : operation.tenantId = entry.tenantId :=
          (hEffects.made append hAppend).own.symm.trans (congrArg EntryCore.tenantId hSame)
        have hAction : append.core.actionId = entry.actionId := congrArg EntryCore.actionId hSame
        rcases hNames append hAppend with ⟨kind, governed, hName⟩ | hName
        · exact .inl ⟨kind, governed, by rw [← hAction, ← hTenant]; exact hName⟩
        · refine .inr ⟨events, event, [], store, rfl, before, ⟨state, hPerform⟩, ⟨operation, hCall, hTenant⟩, ?_⟩
          rw [← hAction]
          exact hName

/-! ## Chains -/

/-- The state passes the check of the store, and the chain of every tenant is verified with its number of entries. -/
def Intact (state : ActionLedgerState) : Prop :=
  validateState state.toValue = .ok state ∧ ∀ tenantId, ∃ headHash tracked,
    verifyTenantState state tenantId = .valid (entriesOf tenantId state.entries).length headHash tracked

theorem Valid.intact {state : ActionLedgerState} (h : Valid state) : Intact state := by
  refine ⟨validateState_toValue h.accepted, fun tenantId => ?_⟩
  by_cases hStored : tenantId ∈ state.tenants.map (·.tenantId)
  · obtain ⟨tenant, hTenant, rfl⟩ := List.mem_map.mp hStored
    exact ⟨tenant.headHash, true, verifyTenantState_eq_valid h.tenantsUnique hTenant (h.chained tenant hTenant)
      fun entry hEntry => h.sealed entry (mem_entriesOf.mp hEntry).1⟩
  · have hNone : entriesOf tenantId state.entries = [] :=
      entriesOf_eq_nil fun entry hEntry hId => hStored (hId ▸ h.tracked entry hEntry)
    refine ⟨genesisHash tenantId, false, ?_⟩
    rw [verifyTenantState, find_none_iff.mpr hStored, hNone]
    rfl

/-- The states that an operation passes through under the lock. -/
inductive InFlight (start : ActionLedgerState) : ActionLedgerState → Prop
  | start : InFlight start start
  | created {tenantId : Identifier} {state after : ActionLedgerState} {tenant : LedgerTenantState}
      (before : InFlight start state) (run : getOrCreateTenant tenantId state = (.ok tenant, after)) :
      InFlight start after
  | retained {tenantId : Identifier} {retentionDays : Option (Positive 3650)} {state after : ActionLedgerState}
      (before : InFlight start state) (run : updateTenant tenantId ({ · with retentionDays }) state = (.ok (), after)) :
      InFlight start after
  | held {tenantId : Identifier} {active : Bool} {state after : ActionLedgerState} (before : InFlight start state)
      (run : updateTenant tenantId ({ · with legalHold := active }) state = (.ok (), after)) : InFlight start after
  | requested {tenantId : Identifier} {time : Timestamp} {state after : ActionLedgerState} (before : InFlight start state)
      (run : updateTenant tenantId ({ · with deletionRequestedAt := some time }) state = (.ok (), after)) :
      InFlight start after
  | rotated {state : ActionLedgerState} (before : InFlight start state) (now : Int) :
      InFlight start (rotateForRetention now state)
  | appended {tenantId : Identifier} {actionId : String} {actionDigest : Hash} {stage : LedgerStage} {data : JsValue}
      {now : Int} {state after : ActionLedgerState} {entry : LedgerEntry} (before : InFlight start state)
      (run : appendEntry tenantId actionId actionDigest stage data now state = (.ok entry, after)) : InFlight start after

theorem InFlight.valid {start state : ActionLedgerState} (hStart : Valid start) (h : InFlight start state) :
    Valid state := by
  induction h with
  | start => exact hStart
  | created _ run ih => exact (getOrCreateTenant_ok ih run).valid
  | retained _ run ih =>
    rw [modify_ok run]
    exact ih.assign fun _ => ⟨rfl, rfl, rfl⟩
  | held _ run ih =>
    rw [modify_ok run]
    exact ih.assign fun _ => ⟨rfl, rfl, rfl⟩
  | requested _ run ih =>
    rw [modify_ok run]
    exact ih.assign fun _ => ⟨rfl, rfl, rfl⟩
  | rotated _ now ih => exact rotateForRetention_valid ih now
  | appended _ run ih =>
    obtain ⟨_, _, _, _, _, _, _, _, _, hAdvances⟩ := appendEntry_ok ih run
    exact hAdvances.valid

/-- Every stored state is intact and so is what an operation makes of it; no append under the lock fails but on its
arguments or on a ledger without room after rotation. -/
theorem ledger_stays_intact (options : Options) (events : List Event) (store : Store)
    (run : (machine options).FreeRun events store) :
    Intact (stateOf store) ∧
    (∀ call operation clock state, Call.operation options call = .ok operation →
      operation.run clock (stateOf store) = (.ok (), state) → Intact state) ∧
    ∀ state, InFlight (stateOf store) state → Intact state ∧
      ∀ tenantId (actionId : Identifier) actionDigest stage data content now,
        (tenantId ∈ state.tenants.map (·.tenantId) ∨ state.tenants.length < MAX_TENANTS) →
        (state.entries.length < MAX_ENTRIES ∨ (rotateForRetention now state).entries.length < MAX_ENTRIES) →
        Printable now → normalizeData data = .ok content →
        ∃ entry after, appendEntry tenantId actionId.val actionDigest stage data now state = (.ok entry, after) ∧
          Intact after := by
  have hValid := run_valid run
  refine ⟨hValid.intact, fun call operation clock state hCall hRun => ?_, fun state hFlight => ?_⟩
  · obtain ⟨_, _, hEffects⟩ := operation_ok hValid hCall hRun
    exact hEffects.valid.intact
  · have hState := hFlight.valid hValid
    refine ⟨hState.intact, fun tenantId actionId actionDigest stage data content now hTenant hRoom hNow hData => ?_⟩
    have hFits : (roomy now state).entries.length < MAX_ENTRIES := by
      rw [roomy]
      split
      · rename_i hFull
        exact hRoom.resolve_left (Nat.not_lt.mpr hFull)
      · rename_i hOpen
        exact Nat.not_le.mp hOpen
    obtain ⟨entry, after, hAppend⟩ := appendEntry_of actionId hState hTenant hFits hNow hData
    refine ⟨entry, after, hAppend, ?_⟩
    obtain ⟨_, _, _, _, _, _, _, _, _, hAdvances⟩ := appendEntry_ok hState hAppend
    exact hAdvances.valid.intact

def acmeOptions : Options where
  accessAuthorizer _ _ _ := .ok ⟨.string "acme", .string "operator",
    [.append, .read, .exports, .manageRetention, .manageHold, .requestDeletion]⟩

theorem acme_isIdentifier : isIdentifier "acme" = true := by decide +kernel

def acme : Identifier := ⟨"acme", acme_isIdentifier⟩

def acmeAccess : JsValue := .object [("tenantId", .string "acme")]

def holdEvent : Event := ⟨.setLegalHold acmeAccess (.bool true), fun _ => some 1786881600000⟩

def retentionEvent : Event := ⟨.configureRetention acmeAccess (.number (.integer 30)), fun _ => some 1786881600000⟩

theorem hold_and_retention_intact :
    Intact (stateOf (take acmeOptions (take acmeOptions none holdEvent) retentionEvent)) :=
  have hRun : (machine acmeOptions).FreeRun [holdEvent, retentionEvent]
      (take acmeOptions (take acmeOptions none holdEvent) retentionEvent) :=
    Machine.freeRun_of_exec rfl
  (ledger_stays_intact acmeOptions _ _ hRun).1

/-! ## Retention -/

theorem acme_authorized (permission : LedgerPermission) : authorize acmeOptions acmeAccess permission = .ok acme := by
  have hTenant : ∀ label, identifier (.string "acme") label = .ok acme := identifier_val acme
  have hPrincipal : ∀ label, ∃ id, identifier (.string "operator") label = .ok id := fun label =>
    ⟨⟨"operator", by decide +kernel⟩, dif_pos _⟩
  obtain ⟨principal, hPrincipal⟩ := hPrincipal "Ledger principal id"
  cases permission <;>
    simp [authorize, acmeOptions, acmeAccess, accessTenantId, Fields.get, hTenant, hPrincipal, failIf, bind,
      Except.bind, pure, Except.pure]

theorem hold_operation : holdEvent.call.operation acmeOptions =
    .ok ⟨acme, fun clock => do let _ ← setLegalHoldOp acme true clock⟩ := by
  rw [holdEvent, Call.operation, acme_authorized]
  rfl

def heldState : ActionLedgerState := ⟨[], [{ freshTenant acme with legalHold := true }]⟩

def holdName : Identifier := ⟨governanceActionId "hold" heldState acme, by decide +kernel⟩

def holdData : LedgerData := ⟨[("active", .bool true)], by decide, by decide, by decide +kernel⟩

theorem heldState_valid : Valid heldState := by
  have hRoom : emptyState.tenants.length < MAX_TENANTS := by decide
  have hCreated : Valid ⟨[], [freshTenant acme]⟩ := Valid.empty.create List.not_mem_nil hRoom
  exact @Valid.assign _ acme ({ · with legalHold := true }) hCreated fun _ => ⟨rfl, rfl, rfl⟩

theorem hold_appended : ∃ entry after, governanceEntry acme "hold" "legal-hold" .legalHold
    (.object [("active", .bool true)]) holdEvent.clock heldState = (.ok entry, after) ∧ Valid after ∧
    acme ∈ after.tenants.map (·.tenantId) := by
  have hNow : Printable 1786881600000 := show Date.isTimestamp (Date.toISOString 1786881600000) = true by decide +kernel
  have hAppend : ∃ entry after, appendEntry acme holdName.val (hashOf ("legal-hold:" ++ acme.val)) .legalHold
      (.object [("active", .bool true)]) 1786881600000 heldState = (.ok entry, after) :=
    appendEntry_of holdName heldState_valid (.inl (List.mem_singleton_self _)) (by decide) hNow
      (normalizeData_toValue holdData)
  obtain ⟨entry, after, hAppend⟩ := hAppend
  obtain ⟨append, _, hCore, hOwn, _, _, _, _, _, hAdvances⟩ := appendEntry_ok heldState_valid hAppend
  refine ⟨entry, after, hAppend, hAdvances.valid, ?_⟩
  have hHistory := hAdvances.histories acme
  have hOwnAppend : append.core.tenantId = acme := hCore ▸ hOwn
  rw [List.foldl_cons, List.foldl_nil, replay, if_pos (c := append.core.tenantId = acme) hOwnAppend] at hHistory
  have hMem : append.core ∈ history acme after.entries := by
    rw [hHistory]
    exact List.mem_append_right _ (List.mem_singleton_self _)
  obtain ⟨stored, hStored, _⟩ := List.mem_map.mp hMem
  obtain ⟨hStored, hId⟩ := mem_entriesOf.mp hStored
  exact hId ▸ hAdvances.valid.tracked stored hStored

theorem hold_performed : ∃ after, perform acmeOptions holdEvent.call holdEvent.clock none = .ok after := by
  obtain ⟨entry, appended, hAppend, hValid, hTenant⟩ := hold_appended
  obtain ⟨tenant, after, hFound, hCreated⟩ := getOrCreateTenant_created hValid (.inl hTenant)
  have hCreate : getOrCreateTenant acme emptyState = (.ok (freshTenant acme), ⟨[], [freshTenant acme]⟩) :=
    getOrCreateTenant_absent rfl (by decide)
  have hAssign : updateTenant acme ({ · with legalHold := true }) ⟨[], [freshTenant acme]⟩ = (.ok (), heldState) := rfl
  have hRun : setLegalHoldOp acme true holdEvent.clock emptyState = (.ok tenant, after) := by
    rw [setLegalHoldOp, bind_of_ok hCreate, bind_of_ok hAssign, bind_of_ok hAppend]
    exact hFound
  have hOperation : (do let _ ← setLegalHoldOp acme true holdEvent.clock : Op Unit) emptyState = (.ok (), after) :=
    bind_of_ok hRun
  have hUpdate : format.update (do let _ ← setLegalHoldOp acme true holdEvent.clock) none = .ok ((), after) :=
    format_accepts.update_of rfl hOperation hCreated.valid.accepted
  rw [perform, hold_operation, ok_bind]
  refine ⟨after, ?_⟩
  change (format.update (do let _ ← setLegalHoldOp acme true holdEvent.clock) none >>= _) = _
  rw [hUpdate]
  rfl

end GhostApi.Ledger
