import GhostApi.Ledger.Chains

/-!
# Appending and retention

An operation is a list of appends to its own tenant. An append may rotate the
ledger first, and that drops entries of any tenant.
-/

namespace GhostApi.Ledger

open Js Validation Effect Effect.Mutation Actions Storage

/-- An append: its clock reading, whether it rotated the ledger, and its entry. -/
structure Append where
  now : Int
  rotates : Bool
  core : EntryCore

def replay (tenantId : Identifier) (settings : Settings) (entries : List EntryCore) (append : Append) : List EntryCore :=
  (if append.rotates then entries.filter fun core => ¬settings.Expires append.now core else entries) ++
    if append.core.tenantId = tenantId then [append.core] else []

/-- Some append rotated when the entry was older than the retention period of its tenant. -/
def Dropped (settings : Settings) (appends : List Append) (core : EntryCore) : Prop :=
  ∃ append ∈ appends, append.rotates = true ∧ settings.Expires append.now core

instance (settings : Settings) (appends : List Append) (core : EntryCore) : Decidable (Dropped settings appends core) :=
  inferInstanceAs (Decidable (∃ append ∈ appends, _))

theorem replay_all (tenantId : Identifier) (settings : Settings) (appends : List Append) (entries : List EntryCore) :
    appends.foldl (replay tenantId settings) entries =
      entries.filter (fun core => ¬Dropped settings appends core) ++ appends.foldl (replay tenantId settings) [] := by
  induction appends generalizing entries with
  | nil => simp [Dropped]
  | cons append rest ih =>
    rw [List.foldl_cons, ih, List.foldl_cons, ih (replay tenantId settings [] append), ← List.append_assoc]
    refine congrArg (· ++ _) ?_
    cases hRotates : append.rotates with
    | false => simp [replay, hRotates, Dropped, List.filter_append]
    | true =>
      simp only [replay, hRotates, if_true, List.filter_append, List.filter_filter, List.filter_nil, List.nil_append]
      refine congrArg (· ++ _) (List.filter_congr fun core _ => ?_)
      simp [Dropped, hRotates, Bool.and_comm]

theorem replay_others {tenantId : Identifier} {settings : Settings} {appends : List Append}
    (h : ∀ append ∈ appends, append.core.tenantId ≠ tenantId) : appends.foldl (replay tenantId settings) [] = [] := by
  induction appends with
  | nil => rfl
  | cons append rest ih =>
    rw [List.forall_mem_cons] at h
    have hFirst : replay tenantId settings [] append = [] := by
      rw [replay, if_neg h.1]
      split <;> rfl
    rw [List.foldl_cons, hFirst, ih h.2]

structure Advances (appends : List Append) (before after : ActionLedgerState) : Prop where
  valid : Valid after
  settings : ∀ tenantId, settingsOf tenantId after.tenants = settingsOf tenantId before.tenants
  histories : ∀ tenantId, history tenantId after.entries =
    appends.foldl (replay tenantId (settingsOf tenantId before.tenants)) (history tenantId before.entries)

theorem Advances.refl {state : ActionLedgerState} (h : Valid state) : Advances [] state state :=
  ⟨h, fun _ => rfl, fun _ => rfl⟩

theorem Advances.trans {first second : List Append} {before mid after : ActionLedgerState}
    (hFirst : Advances first before mid) (hSecond : Advances second mid after) :
    Advances (first ++ second) before after where
  valid := hSecond.valid
  settings tenantId := (hSecond.settings tenantId).trans (hFirst.settings tenantId)
  histories tenantId := by
    rw [hSecond.histories, hFirst.settings, hFirst.histories, List.foldl_append]

theorem Created.advances {tenantId : Identifier} {before after : ActionLedgerState} {tenant : LedgerTenantState}
    (h : Created tenantId before after tenant) : Advances [] before after :=
  ⟨h.valid, h.settings, fun _ => by rw [h.entries]; rfl⟩

/-! ## One append -/

section AppendEntry

variable {tenantId : Identifier} {actionId : String} {actionDigest : Hash} {stage : LedgerStage} {data : JsValue}
  {now : Int} {state state' : ActionLedgerState}

def roomy (now : Int) (state : ActionLedgerState) : ActionLedgerState :=
  if MAX_ENTRIES ≤ state.entries.length then rotateForRetention now state else state

theorem makeRoom_ok {u : Unit} (h : makeRoom now state = (.ok u, state')) :
    state' = roomy now state ∧ (roomy now state).entries.length < MAX_ENTRIES := by
  rw [makeRoom, get_bind] at h
  rw [roomy]
  split at h
  · rename_i hFull
    rw [modify_bind, get_bind] at h
    obtain ⟨hRoom, rfl⟩ := throwIf_ok h
    rw [if_pos hFull]
    exact ⟨rfl, Nat.not_le.mp hRoom⟩
  · rename_i hRoom
    obtain ⟨_, rfl⟩ := pure_ok h
    rw [if_neg hRoom]
    exact ⟨rfl, Nat.not_le.mp hRoom⟩

theorem makeRoom_of (h : (roomy now state).entries.length < MAX_ENTRIES) :
    makeRoom now state = (.ok (), roomy now state) := by
  rw [makeRoom, get_bind]
  rw [roomy] at h ⊢
  split at h
  · rename_i hFull
    rw [if_pos hFull, if_pos hFull, modify_bind, get_bind]
    exact throwIf_of_not (Nat.not_le.mpr h) _ _
  · rename_i hRoom
    rw [if_neg hRoom, if_neg hRoom]
    rfl

theorem roomy_valid (h : Valid state) : Valid (roomy now state) := by
  rw [roomy]
  split
  · exact rotateForRetention_valid h now
  · exact h

theorem roomy_ids (h : Valid state) : (roomy now state).tenants.map (·.tenantId) = state.tenants.map (·.tenantId) := by
  rw [roomy]
  split
  · exact ids_congr (rotateForRetention_rotated h now).profiles
  · rfl

theorem roomy_settings (h : Valid state) (other : Identifier) :
    settingsOf other (roomy now state).tenants = settingsOf other state.tenants := by
  rw [roomy]
  split
  · exact settingsOf_congr (rotateForRetention_rotated h now).profiles other
  · rfl

theorem roomy_history (h : Valid state) (other : Identifier) : history other (roomy now state).entries =
    if MAX_ENTRIES ≤ state.entries.length then
      (history other state.entries).filter fun core => ¬(settingsOf other state.tenants).Expires now core
    else history other state.entries := by
  rw [roomy]
  split
  · exact (rotateForRetention_rotated h now).kept other
  · rfl

def nextEntry (tenant : LedgerTenantState) (core : EntryCore) : LedgerEntry :=
  EntryBase.seal {
    tenantId := core.tenantId
    sequence := ⟨tenant.entryCount + 1, nextSequence_pos tenant⟩
    timestamp := core.timestamp
    actionId := core.actionId
    actionHash := core.actionHash
    stage := core.stage
    data := core.data
    previousHash := if tenant.entryCount = 0 then genesisHash core.tenantId else tenant.headHash }

def pushed (tenant : LedgerTenantState) (core : EntryCore) (state : ActionLedgerState) : ActionLedgerState where
  entries := state.entries ++ [nextEntry tenant core]
  tenants := assign core.tenantId (extended (nextEntry tenant core)) state.tenants

theorem pushed_advances (h : Valid state) (hRoom : state.entries.length < MAX_ENTRIES) {tenant : LedgerTenantState}
    {core : EntryCore} (hTenant : tenant ∈ state.tenants) (hId : tenant.tenantId = core.tenantId) (now : Int) :
    Advances [⟨now, false, core⟩] state (pushed tenant core state) := by
  have hPrevious : (nextEntry tenant core).previousHash =
      entryChain.latest (genesisHash tenant.tenantId) (entriesOf tenant.tenantId state.entries) := by
    have hChained := h.chained tenant hTenant
    change (if tenant.entryCount = 0 then genesisHash core.tenantId else tenant.headHash) = _
    split
    · rename_i hEmpty
      rw [← hChained.count, List.length_eq_zero_iff] at hEmpty
      rw [hEmpty, ← hId]
      rfl
    · exact hChained.head
  refine ⟨?_, fun other => ?_, fun other => ?_⟩
  · rw [pushed, ← hId]
    exact h.append hRoom hTenant hId.symm rfl rfl hPrevious
  · exact assign_settings (f := extended (nextEntry tenant core)) (fun _ => rfl) state.tenants other
  · rw [pushed, history, entriesOf_append, List.map_append]
    change history other state.entries ++ _ = history other state.entries ++ _
    refine congrArg (_ ++ ·) ?_
    dsimp only
    split
    · rename_i hOwn
      rw [entriesOf_eq_self (List.forall_mem_singleton.mpr hOwn)]
      rfl
    · rename_i hOther
      rw [entriesOf_eq_nil (List.forall_mem_singleton.mpr hOther)]
      rfl

theorem roomy_advances (h : Valid state) {core : EntryCore} {after : ActionLedgerState}
    (hPush : Advances [⟨now, false, core⟩] (roomy now state) after) :
    Advances [⟨now, decide (MAX_ENTRIES ≤ state.entries.length), core⟩] state after where
  valid := hPush.valid
  settings other := (hPush.settings other).trans (roomy_settings h other)
  histories other := by
    rw [hPush.histories, roomy_settings h, roomy_history h]
    simp [replay]

theorem appendEntry_cases {entry : LedgerEntry}
    (hRun : appendEntry tenantId actionId actionDigest stage data now state = (.ok entry, state')) :
    ∃ found first tenant third core, getOrCreateTenant tenantId state = (.ok found, first) ∧
      (roomy now first).entries.length < MAX_ENTRIES ∧
      getOrCreateTenant tenantId (roomy now first) = (.ok tenant, third) ∧ core.tenantId = tenantId ∧
      core.timestamp.val = Date.toISOString now ∧ core.actionId.val = actionId ∧ core.actionHash = actionDigest ∧
      core.stage = stage ∧ normalizeData data = .ok core.data ∧ entry = nextEntry tenant core ∧
      state' = pushed tenant core third := by
  obtain ⟨found, first, hFirst, hRun⟩ := bind_ok hRun
  obtain ⟨_, second, hSecond, hRun⟩ := bind_ok hRun
  obtain ⟨hMid, hRoom⟩ := makeRoom_ok hSecond
  rw [hMid] at hRun
  obtain ⟨tenant, third, hThird, hRun⟩ := bind_ok hRun
  obtain ⟨time, _, hLift, hRun⟩ := bind_ok hRun
  obtain ⟨hTime, hSame⟩ := lift_ok hLift
  rw [← hSame] at hRun
  obtain ⟨actionId', _, hLift, hRun⟩ := bind_ok hRun
  obtain ⟨hAction, hSame⟩ := lift_ok hLift
  rw [← hSame] at hRun
  obtain ⟨data', _, hLift, hRun⟩ := bind_ok hRun
  obtain ⟨hData, hSame⟩ := lift_ok hLift
  rw [← hSame] at hRun
  cases hRun
  exact ⟨found, first, tenant, third, ⟨tenantId, time, actionId', actionDigest, stage, data'⟩, hFirst, hRoom, hThird,
    rfl, timestamp_ok hTime, identifierOr_ok hAction, rfl, rfl, hData, rfl, rfl⟩

theorem appendEntry_ok {entry : LedgerEntry} (h : Valid state)
    (hRun : appendEntry tenantId actionId actionDigest stage data now state = (.ok entry, state')) :
    ∃ append : Append, append.now = now ∧ append.core = entry.core ∧ entry.core.tenantId = tenantId ∧
      entry.core.timestamp.val = Date.toISOString now ∧ entry.core.actionId.val = actionId ∧
      entry.core.actionHash = actionDigest ∧ entry.core.stage = stage ∧ normalizeData data = .ok entry.core.data ∧
      Advances [append] state state' := by
  obtain ⟨_, first, tenant, third, core, hFirst, hRoom, hThird, hOwn, hTime, hAction, hDigest, hStage, hData, rfl, rfl⟩ :=
    appendEntry_cases hRun
  have hCreated := getOrCreateTenant_ok h hFirst
  have hAgain := getOrCreateTenant_ok (roomy_valid hCreated.valid) hThird
  have hPushed : Advances [⟨now, false, core⟩] third (pushed tenant core third) :=
    pushed_advances hAgain.valid (hAgain.entries ▸ hRoom) hAgain.found.1 (hAgain.found.2.trans hOwn.symm) now
  refine ⟨⟨now, decide (MAX_ENTRIES ≤ first.entries.length), core⟩, rfl, rfl, hOwn, hTime, hAction, hDigest, hStage,
    hData, ?_⟩
  exact hCreated.advances.trans (roomy_advances hCreated.valid (hAgain.advances.trans hPushed))

theorem rotateTenants_fresh (entries : List LedgerEntry) (tenants : List LedgerTenantState) :
    (rotateTenants now entries (tenants ++ [freshTenant tenantId])).entries =
      (rotateTenants now entries tenants).entries := by
  induction tenants generalizing entries with
  | nil => rfl
  | cons tenant rest ih => exact ih _

theorem Created.roomy {tenant : LedgerTenantState} {after : ActionLedgerState}
    (h : getOrCreateTenant tenantId state = (.ok tenant, after)) :
    (Ledger.roomy now after).entries = (Ledger.roomy now state).entries := by
  rcases getOrCreateTenant_cases h with ⟨_, rfl⟩ | ⟨_, _, _, rfl⟩
  · rfl
  · rw [Ledger.roomy, Ledger.roomy]
    dsimp only
    split
    · exact rotateTenants_fresh state.entries state.tenants
    · rfl

theorem appendEntry_of (actionName : Identifier) {content : LedgerData} (h : Valid state)
    (hTenant : tenantId ∈ state.tenants.map (·.tenantId) ∨ state.tenants.length < MAX_TENANTS)
    (hRoom : (roomy now state).entries.length < MAX_ENTRIES) (hNow : Printable now)
    (hData : normalizeData data = .ok content) :
    ∃ entry after, appendEntry tenantId actionName.val actionDigest stage data now state = (.ok entry, after) := by
  obtain ⟨tenant, first, hFirst, hCreated⟩ := getOrCreateTenant_created h hTenant
  have hFits : (roomy now first).entries.length < MAX_ENTRIES := Created.roomy hFirst ▸ hRoom
  have hStored : tenantId ∈ (roomy now first).tenants.map (·.tenantId) := by
    rw [roomy_ids hCreated.valid]
    exact hCreated.found.2 ▸ List.mem_map_of_mem hCreated.found.1
  obtain ⟨again, third, hAgain, _⟩ := getOrCreateTenant_created (roomy_valid hCreated.valid) (.inl hStored)
  have hTime : timestamp refuse (.string (Date.toISOString now)) "Ledger timestamp" = .ok ⟨_, hNow⟩ := dif_pos hNow
  rw [appendEntry, bind_of_ok hFirst, bind_of_ok (makeRoom_of hFits), bind_of_ok hAgain, hTime, lift_bind,
    identifier_val, lift_bind, hData, lift_bind]
  exact ⟨_, _, rfl⟩

end AppendEntry

/-! ## Operations -/

/-- An append of an operation of a tenant, with a time of its clock. -/
structure Append.MadeBy (tenantId : Identifier) (clock : Clock) (append : Append) : Prop where
  own : append.core.tenantId = tenantId
  read : ∃ n, clock n = some append.now
  time : append.core.timestamp.val = Date.toISOString append.now

structure Append.Records (actionId : Identifier) (actionDigest : Hash) (evidence : Evidence) (append : Append) : Prop where
  action : append.core.actionId = actionId
  digest : append.core.actionHash = actionDigest
  stage : append.core.stage = evidence.stage
  data : evidence.data >>= normalizeData = .ok append.core.data

theorem reading_ok {reading : Option Int} {now : Int} (h : format.timestamp reading = .ok now) :
    reading = some now := by
  cases reading with
  | none => cases h
  | some ms =>
    rw [StoreFormat.timestamp] at h
    split at h
    · cases h
      rfl
    · cases h

theorem appendAll_ok {tenantId actionId : Identifier} {actionDigest : Hash} {evidence : List Evidence} {clock : Clock}
    {state state' : ActionLedgerState} {entries : List LedgerEntry} (h : Valid state)
    (hRun : appendAll tenantId actionId actionDigest evidence clock state = (.ok entries, state')) :
    ∃ appends : List Append, (∀ append ∈ appends, append.MadeBy tenantId clock) ∧
      List.Forall₂ (fun evidence append => append.Records actionId actionDigest evidence) evidence appends ∧
      Advances appends state state' := by
  induction evidence generalizing clock state entries with
  | nil =>
    obtain ⟨_, rfl⟩ := pure_ok hRun
    exact ⟨[], fun _ h => (List.not_mem_nil h).elim, .nil, .refl h⟩
  | cons first rest ih =>
    obtain ⟨data, _, hLift, hRun⟩ := bind_ok hRun
    obtain ⟨hData, hSame⟩ := lift_ok hLift
    rw [← hSame] at hRun
    obtain ⟨now, _, hLift, hRun⟩ := bind_ok hRun
    obtain ⟨hNow, hSame⟩ := lift_ok hLift
    rw [← hSame] at hRun
    obtain ⟨entry, mid, hAppend, hRun⟩ := bind_ok hRun
    obtain ⟨others, last, hRest, hRun⟩ := bind_ok hRun
    cases hRun
    obtain ⟨append, hAppendNow, hCore, hOwn, hTime, hAction, hDigest, hStage, hContent, hFirst⟩ :=
      appendEntry_ok h hAppend
    obtain ⟨appends, hMade, hRecords, hAdvances⟩ := ih hFirst.valid hRest
    refine ⟨append :: appends, List.forall_mem_cons.mpr ⟨?_, fun other hOther => ?_⟩, .cons ?_ hRecords,
      hFirst.trans hAdvances⟩
    · refine ⟨hCore ▸ hOwn, ⟨0, ?_⟩, ?_⟩
      · rw [hAppendNow]
        exact reading_ok hNow
      · rw [hAppendNow, hCore]
        exact hTime
    · obtain ⟨hOtherOwn, ⟨n, hRead⟩, hOtherTime⟩ := hMade other hOther
      exact ⟨hOtherOwn, ⟨n + 1, hRead⟩, hOtherTime⟩
    · refine ⟨hCore ▸ Subtype.ext hAction, hCore ▸ hDigest, hCore ▸ hStage, ?_⟩
      rw [hData, hCore]
      exact hContent

/-- What an operation of a tenant does to the ledger: it may change the settings of the tenant, and then it appends. -/
structure Effects (tenantId : Identifier) (clock : Clock) (appends : List Append) (before after : ActionLedgerState) :
    Prop where
  valid : Valid after
  made : ∀ append ∈ appends, append.MadeBy tenantId clock
  settings : ∀ other ≠ tenantId, settingsOf other after.tenants = settingsOf other before.tenants
  histories : ∀ other, history other after.entries =
    appends.foldl (replay other (settingsOf other after.tenants)) (history other before.entries)

theorem Advances.effects {tenantId : Identifier} {clock : Clock} {appends : List Append}
    {before after : ActionLedgerState} (h : Advances appends before after)
    (hMade : ∀ append ∈ appends, append.MadeBy tenantId clock) : Effects tenantId clock appends before after where
  valid := h.valid
  made := hMade
  settings other _ := h.settings other
  histories other := by
    rw [h.histories, h.settings]

theorem Effects.of_assign {tenantId : Identifier} {clock : Clock} {appends : List Append}
    {before created mid after : ActionLedgerState} {tenant : LedgerTenantState} {f : LedgerTenantState → LedgerTenantState}
    (hCreated : Created tenantId before created tenant) (hMid : mid = { created with tenants := assign tenantId f created.tenants })
    (hf : ∀ tenant, (f tenant).tenantId = tenant.tenantId) (h : Advances appends mid after)
    (hMade : ∀ append ∈ appends, append.MadeBy tenantId clock) : Effects tenantId clock appends before after where
  valid := h.valid
  made := hMade
  settings other hOther := by
    rw [h.settings, hMid, assign_settings_other hf hOther, hCreated.settings]
  histories other := by
    rw [h.histories, h.settings, hMid, hCreated.entries]

theorem governanceEntry_ok {tenantId : Identifier} {kind subject : String} {stage : LedgerStage} {data : JsValue}
    {clock : Clock} {state state' : ActionLedgerState} {entry : LedgerEntry} (h : Valid state)
    (hRun : governanceEntry tenantId kind subject stage data clock state = (.ok entry, state')) :
    ∃ append : Append, append.MadeBy tenantId clock ∧
      append.core.actionId.val = governanceActionId kind state tenantId ∧ append.core.stage = stage ∧
      Advances [append] state state' := by
  rw [governanceEntry, get_bind] at hRun
  obtain ⟨now, _, hLift, hRun⟩ := bind_ok hRun
  obtain ⟨hNow, rfl⟩ := lift_ok hLift
  obtain ⟨append, hAppendNow, hCore, hOwn, hTime, hAction, _, hStage, _, hAdvances⟩ := appendEntry_ok h hRun
  refine ⟨append, ⟨hCore ▸ hOwn, ⟨0, ?_⟩, ?_⟩, hCore ▸ hAction, hCore ▸ hStage, hAdvances⟩
  · rw [hAppendNow]
    exact reading_ok hNow
  · rw [hAppendNow, hCore]
    exact hTime

/-- An append whose entry has a name of the ledger's own. -/
def Append.Governs (tenantId : Identifier) (append : Append) : Prop :=
  ∃ kind state, append.core.actionId.val = governanceActionId kind state tenantId

/-- The append of a governance operation, with the kind in its name. -/
structure Append.Governance (tenantId : Identifier) (kind : String) (stage : LedgerStage) (before : ActionLedgerState)
    (append : Append) : Prop where
  name : append.core.actionId.val = governanceActionId kind before tenantId
  stage : append.core.stage = stage

theorem Append.Governance.governs {tenantId : Identifier} {kind : String} {stage : LedgerStage}
    {before : ActionLedgerState} {append : Append} (h : append.Governance tenantId kind stage before) :
    append.Governs tenantId := ⟨kind, before, h.name⟩

theorem governanceActionId_congr {before before' : ActionLedgerState} (h : before'.entries = before.entries)
    (kind : String) (tenantId : Identifier) :
    governanceActionId kind before' tenantId = governanceActionId kind before tenantId := by
  rw [governanceActionId, governanceActionId, h]

theorem recordActionOp_ok {tenantId : Identifier} {record : ActionLedgerRecord} {clock : Clock}
    {state state' : ActionLedgerState} {entries : List LedgerEntry} (h : Valid state)
    (hRun : recordActionOp tenantId record clock state = (.ok entries, state')) :
    entriesForAction state tenantId record.envelope.actionId ≠ [] ∧ state' = state ∨
      entriesForAction state tenantId record.envelope.actionId = [] ∧
      ∃ appends : List Append, (∀ append ∈ appends, append.MadeBy tenantId clock) ∧
        List.Forall₂ (fun evidence append => append.Records record.envelope.actionId (actionHash record.envelope) evidence)
          record.evidence appends ∧ Advances appends state state' := by
  rw [recordActionOp, get_bind] at hRun
  cases hExisting : entriesForAction state tenantId record.envelope.actionId with
  | cons first rest =>
    rw [hExisting] at hRun
    obtain ⟨_, _, hSame, hRun⟩ := bind_ok hRun
    obtain ⟨_, rfl⟩ := throwIf_ok hSame
    exact .inl ⟨List.cons_ne_nil first rest, (pure_ok hRun).2.symm⟩
  | nil =>
    rw [hExisting] at hRun
    exact .inr ⟨rfl, appendAll_ok h hRun⟩

section Governance

variable {tenantId : Identifier} {clock : Clock} {state state' : ActionLedgerState} {tenant : LedgerTenantState}

theorem getOrCreateTenant_stored (h : Valid state) (hStored : tenantId ∈ state.tenants.map (·.tenantId))
    (hRun : getOrCreateTenant tenantId state = (.ok tenant, state')) : state' = state := by
  rcases getOrCreateTenant_cases hRun with ⟨_, rfl⟩ | ⟨hAbsent, _⟩
  · rfl
  · exact absurd hStored (find_none_iff.mp hAbsent)

theorem assign_then_append_ok {f : LedgerTenantState → LedgerTenantState} {kind subject : String} {stage : LedgerStage}
    {data : JsValue} (hf : ∀ tenant, (f tenant).tenantId = tenant.tenantId ∧
      (f tenant).entryCount = tenant.entryCount ∧ (f tenant).headHash = tenant.headHash) (h : Valid state)
    (hRun : (do
      let _ ← getOrCreateTenant tenantId
      updateTenant tenantId f
      let _ ← governanceEntry tenantId kind subject stage data clock
      getOrCreateTenant tenantId : Op LedgerTenantState) state = (.ok tenant, state')) :
    ∃ append : Append, append.Governance tenantId kind stage state ∧ Effects tenantId clock [append] state state' := by
  obtain ⟨_, created, hCreate, hRun⟩ := bind_ok hRun
  have hCreated := getOrCreateTenant_ok h hCreate
  obtain ⟨_, mid, hAssign, hRun⟩ := bind_ok hRun
  have hMid := modify_ok hAssign
  obtain ⟨_, last, hEntry, hRun⟩ := bind_ok hRun
  have hValid : Valid mid := by
    rw [hMid]
    exact hCreated.valid.assign hf
  obtain ⟨append, hMade, hAction, hStage, hAdvances⟩ := governanceEntry_ok hValid hEntry
  have hFinal := hAdvances.trans (getOrCreateTenant_ok hAdvances.valid hRun).advances
  have hSame : mid.entries = state.entries := (congrArg ActionLedgerState.entries hMid).trans hCreated.entries
  exact ⟨append, ⟨hAction.trans (governanceActionId_congr hSame kind tenantId), hStage⟩,
    .of_assign hCreated hMid (fun tenant => (hf tenant).1) hFinal (List.forall_mem_singleton.mpr hMade)⟩

theorem configureRetentionOp_ok {retentionDays : Option (Positive 3650)} (h : Valid state)
    (hRun : configureRetentionOp tenantId retentionDays clock state = (.ok tenant, state')) :
    ∃ append : Append, append.Governance tenantId "retention" .retention state ∧
      Effects tenantId clock [append] state state' :=
  assign_then_append_ok (f := ({ · with retentionDays })) (fun _ => ⟨rfl, rfl, rfl⟩) h hRun

theorem setLegalHoldOp_ok {active : Bool} (h : Valid state)
    (hRun : setLegalHoldOp tenantId active clock state = (.ok tenant, state')) :
    ∃ append : Append, append.Governance tenantId "hold" .legalHold state ∧
      Effects tenantId clock [append] state state' :=
  assign_then_append_ok (f := ({ · with legalHold := active })) (fun _ => ⟨rfl, rfl, rfl⟩) h hRun

theorem requested_advances (h : Valid state) (time : Timestamp) : Advances [] state
    { state with tenants := assign tenantId ({ · with deletionRequestedAt := some time }) state.tenants } where
  valid := h.assign fun _ => ⟨rfl, rfl, rfl⟩
  settings := assign_settings (f := ({ · with deletionRequestedAt := some time })) (fun _ => rfl) state.tenants
  histories _ := rfl

theorem requestDeletionOp_ok (h : Valid state) (hRun : requestDeletionOp tenantId clock state = (.ok tenant, state')) :
    ∃ appends : List Append, (∀ append ∈ appends, append.MadeBy tenantId clock) ∧ Advances appends state state' ∧
      (appends = [] ∨ ∃ append, append.Governance tenantId "deletion" .deletionRequest state ∧ appends = [append]) := by
  obtain ⟨found, created, hCreate, hRun⟩ := bind_ok hRun
  have hCreated := getOrCreateTenant_ok h hCreate
  obtain ⟨_, held, hHold, hRun⟩ := bind_ok hRun
  obtain ⟨_, hSame⟩ := throwIf_ok hHold
  rw [← hSame] at hRun
  dsimp only at hRun
  rcases ite_ok hRun with ⟨_, hRun⟩ | ⟨_, hRun⟩
  · obtain ⟨entry, last, hEntry, hRun⟩ := bind_ok hRun
    obtain ⟨append, hMade, hAction, hStage, hAdvances⟩ := governanceEntry_ok hCreated.valid hEntry
    obtain ⟨_, requested, hAssign, hRun⟩ := bind_ok hRun
    have hMid := modify_ok hAssign
    have hRequested := @requested_advances tenantId last hAdvances.valid entry.timestamp
    rw [assign, ← hMid] at hRequested
    have hFinal := getOrCreateTenant_ok hRequested.valid hRun
    have hAll : Advances [append] state state' :=
      hCreated.advances.trans (hAdvances.trans (hRequested.trans hFinal.advances))
    refine ⟨[append], List.forall_mem_singleton.mpr hMade, hAll, .inr ⟨append, ⟨?_, hStage⟩, rfl⟩⟩
    exact hAction.trans (governanceActionId_congr hCreated.entries "deletion" tenantId)
  · have hFinal := getOrCreateTenant_ok hCreated.valid hRun
    exact ⟨[], fun _ h => (List.not_mem_nil h).elim, hCreated.advances.trans hFinal.advances, .inl rfl⟩

end Governance

end GhostApi.Ledger
