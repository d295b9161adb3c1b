import GhostApi.Ledger.FileSize

/-!
# What recordAction returns

An append that finds the ledger full may drop and renumber what earlier
appends of the same call have returned. The entries of a ledger without their
places in the chains tell when that happens.
-/

namespace GhostApi.Ledger

open Js Json Security Validation Effect Effect.Mutation Actions Storage Transition

/-! ## Appends on cores -/

/-- A full ledger loses what has expired at the time of the new entry. -/
def entered (settings : Identifier → Settings) (cores : List EntryCore) (core : EntryCore) : List EntryCore :=
  (if MAX_ENTRIES ≤ cores.length then
    cores.filter fun other => ¬(settings other.tenantId).Expires (timeOf core.timestamp) other
  else cores) ++ [core]

/-- The time has come to drop an entry of a tenant from a full ledger. -/
def Drops (settings : Identifier → Settings) (cores : List EntryCore) (core : EntryCore) : Prop :=
  MAX_ENTRIES ≤ cores.length ∧
    ∃ other ∈ cores, other.tenantId = core.tenantId ∧ (settings other.tenantId).Expires (timeOf core.timestamp) other

theorem not_drops_iff {settings : Identifier → Settings} {cores : List EntryCore} {core : EntryCore} : ¬Drops settings cores core ↔
    (MAX_ENTRIES ≤ cores.length → ∀ other ∈ cores, other.tenantId = core.tenantId →
      ¬(settings other.tenantId).Expires (timeOf core.timestamp) other) := by
  simp only [Drops, not_and, not_exists]

def Steady (settings : Identifier → Settings) (cores : List EntryCore) : List EntryCore → Prop
  | [] => True
  | core :: rest =>
    ¬Drops settings cores core ∧ Steady settings (entered settings cores core) rest

def Holds (state : ActionLedgerState) (cores : List EntryCore) : Prop :=
  ∀ tenantId, history tenantId state.entries = cores.filter (·.tenantId = tenantId)

theorem history_eq_filter (tenantId : Identifier) (entries : List LedgerEntry) :
    history tenantId entries = (entries.map LedgerEntry.core).filter (·.tenantId = tenantId) := by
  rw [history, entriesOf, List.filter_map]
  rfl

theorem holds_cores (state : ActionLedgerState) : Holds state (state.entries.map LedgerEntry.core) :=
  fun tenantId => history_eq_filter tenantId state.entries

theorem Holds.length {state : ActionLedgerState} {cores : List EntryCore} (h : Holds state cores) :
    cores.length = state.entries.length := by
  have hPerm : (state.entries.map LedgerEntry.core).Perm cores :=
    perm_of_filter_eq fun tenantId => (history_eq_filter tenantId state.entries).symm.trans (h tenantId)
  rw [← hPerm.length_eq, List.length_map]

section Append

variable {tenantId : Identifier} {actionName : String} {actionDigest : Hash} {stage : LedgerStage} {data : JsValue}
  {now : Int} {state after : ActionLedgerState} {entry : LedgerEntry} {cores : List EntryCore}

theorem Holds.append (hHolds : Holds state cores) (h : Valid state)
    (hRun : appendEntry tenantId actionName actionDigest stage data now state = (.ok entry, after)) :
    Holds after (entered (settingsOf · state.tenants) cores entry.core) := by
  obtain ⟨_, first, tenant, third, core, hFirst, hRoom, hThird, hOwn, hTime, _, _, _, _, rfl, rfl⟩ :=
    appendEntry_cases hRun
  have hCreated := getOrCreateTenant_ok h hFirst
  have hAgain := getOrCreateTenant_ok (roomy_valid hCreated.valid) hThird
  have hPushed : Advances [⟨now, false, core⟩] third (pushed tenant core third) :=
    pushed_advances hAgain.valid (hAgain.entries ▸ hRoom) hAgain.found.1 (hAgain.found.2.trans hOwn.symm) now
  have hNow : timeOf core.timestamp = now := timeOf_eq hTime
  intro other
  rw [hPushed.histories, List.foldl_cons, List.foldl_nil, replay, hAgain.entries, roomy_history hCreated.valid,
    hCreated.entries, hCreated.settings, hHolds other, entered, hHolds.length, List.filter_append]
  change _ = _ ++ List.filter _ [core]
  rw [show (nextEntry tenant core).core = core from rfl, hNow]
  have hLast : (if core.tenantId = other then [core] else []) = [core].filter (·.tenantId = other) := by
    rw [List.filter_singleton]
    simp
  rw [if_neg Bool.false_ne_true, ← hLast]
  refine congrArg (· ++ _) ?_
  split
  · rw [List.filter_filter, List.filter_filter]
    refine List.filter_congr fun core _ => ?_
    by_cases hSame : core.tenantId = other
    · simp [hSame]
    · simp [hSame]
  · rfl

theorem appendEntry_last (h : Valid state)
    (hRun : appendEntry tenantId actionName actionDigest stage data now state = (.ok entry, after)) :
    entriesOf tenantId after.entries = entriesOf tenantId (roomy now state).entries ++ [entry] ∧
      entry.sequence.val = (entriesOf tenantId after.entries).length := by
  obtain ⟨_, first, tenant, third, core, hFirst, _, hThird, hOwn, _, _, _, _, _, rfl, rfl⟩ := appendEntry_cases hRun
  have hCreated := getOrCreateTenant_ok h hFirst
  have hAgain := getOrCreateTenant_ok (roomy_valid hCreated.valid) hThird
  have hChained : Chained (entriesOf tenantId third.entries) tenant :=
    hAgain.found.2 ▸ hAgain.valid.chained tenant hAgain.found.1
  have hEntries : entriesOf tenantId (pushed tenant core third).entries =
      entriesOf tenantId (roomy now state).entries ++ [nextEntry tenant core] := by
    rw [pushed, entriesOf_append, entriesOf_eq_self (List.forall_mem_singleton.mpr hOwn), hAgain.entries,
      Created.roomy hFirst]
  refine ⟨hEntries, ?_⟩
  rw [hEntries, List.length_append, List.length_singleton, ← Created.roomy hFirst, ← hAgain.entries, hChained.count]
  rfl

theorem mem_cores_iff (hHolds : Holds state cores) {core : EntryCore} (hOwn : core.tenantId = tenantId) :
    core ∈ cores ↔ core ∈ history tenantId state.entries := by
  rw [hHolds, List.mem_filter, decide_eq_true_eq, and_iff_left hOwn]

theorem roomy_own (hHolds : Holds state cores) (h : Valid state) {core : EntryCore} (hOwn : core.tenantId = tenantId)
    (hTime : core.timestamp.val = Date.toISOString now) :
    (¬Drops (settingsOf · state.tenants) cores core →
      entriesOf tenantId (roomy now state).entries = entriesOf tenantId state.entries) ∧
    (Drops (settingsOf · state.tenants) cores core →
      (entriesOf tenantId (roomy now state).entries).length < (entriesOf tenantId state.entries).length) := by
  have hNow : timeOf core.timestamp = now := timeOf_eq hTime
  constructor
  · intro hKeeps
    rw [not_drops_iff, hHolds.length, hNow] at hKeeps
    rw [roomy]
    split
    · rename_i hFull
      refine rotateTenants_own h.tenantsUnique h.chained h.sealed fun entry hEntry => ?_
      have hId : entry.core.tenantId = tenantId := (mem_entriesOf.mp hEntry).2
      have hStays := hKeeps hFull entry.core ((mem_cores_iff hHolds hId).mpr (List.mem_map_of_mem hEntry))
        (hId.trans hOwn.symm)
      rwa [hId] at hStays
    · rfl
  · rintro ⟨hFull, other, hOther, hSame, hExpires⟩
    rw [hHolds.length] at hFull
    rw [hSame, hOwn, hNow] at hExpires
    have hMem := (mem_cores_iff hHolds (hSame.trans hOwn)).mp hOther
    have hLength : ∀ state : ActionLedgerState,
        (entriesOf tenantId state.entries).length = (history tenantId state.entries).length := fun state =>
      (List.length_map _).symm
    rw [hLength, hLength, roomy_history h, if_pos hFull]
    refine lt_of_le_of_ne (List.length_filter_le _ _) fun hAll => ?_
    have hStays := List.length_filter_eq_length_iff.mp hAll other hMem
    exact of_decide_eq_true hStays hExpires

end Append

/-! ## All appends of a call -/

section AppendAll

variable {tenantId actionId : Identifier} {actionDigest : Hash} {evidence : List Evidence} {clock : Clock}
  {state after : ActionLedgerState} {entries : List LedgerEntry} {cores : List EntryCore}

theorem Valid.increasing (h : Valid state) (tenantId : Identifier) :
    ((entriesOf tenantId state.entries).map (·.sequence.val)).Pairwise (· < ·) := by
  by_cases hStored : tenantId ∈ state.tenants.map (·.tenantId)
  · obtain ⟨tenant, hTenant, rfl⟩ := List.mem_map.mp hStored
    have hNumbers := (h.chained tenant hTenant).linked.2
    change (entriesOf tenant.tenantId state.entries).map (·.sequence.val) = _ at hNumbers
    rw [hNumbers]
    exact List.pairwise_lt_range'
  · have hNone : entriesOf tenantId state.entries = [] :=
      entriesOf_eq_nil fun entry hEntry hId => hStored (hId ▸ h.tracked entry hEntry)
    rw [hNone]
    exact .nil

theorem appendAll_cons {item : Evidence} (hRun : appendAll tenantId actionId actionDigest (item :: evidence) clock state =
      (.ok entries, after)) :
    ∃ data now entry mid others, item.data = .ok data ∧ clock 0 = some now ∧
      appendEntry tenantId actionId.val actionDigest item.stage data now state = (.ok entry, mid) ∧
      appendAll tenantId actionId actionDigest evidence (fun n => clock (n + 1)) mid = (.ok others, after) ∧
      entries = entry :: others := by
  obtain ⟨data, _, hLift, hRun⟩ := bind_ok hRun
  obtain ⟨hData, hSame⟩ := lift_ok hLift
  rw [← hSame] at hRun
  obtain ⟨now, _, hLift, hRun⟩ := bind_ok hRun
  obtain ⟨hNow, hSame⟩ := lift_ok hLift
  rw [← hSame] at hRun
  obtain ⟨entry, mid, hAppend, hRun⟩ := bind_ok hRun
  obtain ⟨others, last, hRest, hRun⟩ := bind_ok hRun
  cases hRun
  exact ⟨data, now, entry, mid, others, hData, reading_ok hNow, hAppend, hRest, rfl⟩

theorem own_of_steady (hHolds : Holds state cores) (h : Valid state)
    (hRun : appendAll tenantId actionId actionDigest evidence clock state = (.ok entries, after))
    (hSteady : Steady (settingsOf · state.tenants) cores (entries.map LedgerEntry.core)) :
    entriesOf tenantId after.entries = entriesOf tenantId state.entries ++ entries := by
  induction evidence generalizing clock state entries cores with
  | nil =>
    obtain ⟨rfl, rfl⟩ := pure_ok hRun
    exact (List.append_nil _).symm
  | cons item rest ih =>
    obtain ⟨data, now, entry, mid, others, _, _, hAppend, hRest, rfl⟩ := appendAll_cons hRun
    obtain ⟨_, _, _, hOwn, hTime, _, _, _, _, hAdvances⟩ := appendEntry_ok h hAppend
    obtain ⟨hKeeps, hSteady⟩ := hSteady
    rw [← funext hAdvances.settings] at hSteady
    rw [ih (funext hAdvances.settings ▸ hHolds.append h hAppend) hAdvances.valid hRest hSteady,
      (appendEntry_last h hAppend).1, (roomy_own hHolds h hOwn hTime).1 hKeeps, List.append_assoc]
    rfl

/-- By induction on the evidence: once something is dropped, the next number is no greater than the one before. -/
theorem steady_of_increasing (hHolds : Holds state cores) (h : Valid state)
    (hRun : appendAll tenantId actionId actionDigest evidence clock state = (.ok entries, after))
    (hIncreasing : ((entriesOf tenantId state.entries).length :: entries.map (·.sequence.val)).Pairwise (· < ·)) :
    Steady (settingsOf · state.tenants) cores (entries.map LedgerEntry.core) := by
  induction evidence generalizing clock state entries cores with
  | nil =>
    obtain ⟨rfl, rfl⟩ := pure_ok hRun
    trivial
  | cons item rest ih =>
    obtain ⟨data, now, entry, mid, others, _, _, hAppend, hRest, rfl⟩ := appendAll_cons hRun
    obtain ⟨_, _, _, hOwn, hTime, _, _, _, _, hAdvances⟩ := appendEntry_ok h hAppend
    obtain ⟨hLast, hNumber⟩ := appendEntry_last h hAppend
    rw [List.map_cons, List.pairwise_cons, List.forall_mem_cons] at hIncreasing
    obtain ⟨⟨hNext, _⟩, hIncreasing⟩ := hIncreasing
    rw [List.map_cons]
    constructor
    · intro hDrops
      have hLess := (roomy_own hHolds h hOwn hTime).2 hDrops
      rw [hNumber, hLast, List.length_append, List.length_singleton] at hNext
      omega
    · rw [hNumber] at hIncreasing
      have hMid := hHolds.append h hAppend
      have hSteady := ih hMid hAdvances.valid hRest hIncreasing
      rwa [funext hAdvances.settings] at hSteady

/-- The entry of a piece of evidence at a reading of the clock. -/
def Evidence.core (tenantId actionId : Identifier) (actionDigest : Hash) (evidence : Evidence) (reading : Option Int) :
    Option EntryCore := do
  let data ← (evidence.data >>= normalizeData).toOption
  let now ← reading
  if h : Date.isTimestamp (Date.toISOString now) = true then
    some ⟨tenantId, ⟨Date.toISOString now, h⟩, actionId, actionDigest, evidence.stage, data⟩
  else none

def planned (tenantId actionId : Identifier) (actionDigest : Hash) : List Evidence → Clock → List EntryCore
  | [], _ => []
  | evidence :: rest, clock => (evidence.core tenantId actionId actionDigest (clock 0)).toList ++
      planned tenantId actionId actionDigest rest fun n => clock (n + 1)

theorem planned_eq (h : Valid state)
    (hRun : appendAll tenantId actionId actionDigest evidence clock state = (.ok entries, after)) :
    planned tenantId actionId actionDigest evidence clock = entries.map LedgerEntry.core := by
  induction evidence generalizing clock state entries with
  | nil =>
    obtain ⟨rfl, rfl⟩ := pure_ok hRun
    rfl
  | cons item rest ih =>
    obtain ⟨data, now, entry, mid, others, hData, hNow, hAppend, hRest, rfl⟩ := appendAll_cons hRun
    obtain ⟨_, _, _, hOwn, hTime, hAction, hDigest, hStage, hContent, hAdvances⟩ := appendEntry_ok h hAppend
    have hFirst : item.core tenantId actionId actionDigest (clock 0) = some entry.core := by
      have hPrinted : Date.isTimestamp (Date.toISOString now) = true := hTime ▸ entry.core.timestamp.property
      have hSame : entry.core = ⟨tenantId, ⟨Date.toISOString now, hPrinted⟩, actionId, actionDigest, item.stage,
          entry.core.data⟩ := by
        have hPrintedTime : entry.core.timestamp = ⟨Date.toISOString now, hPrinted⟩ := Subtype.ext hTime
        have hNamed : entry.core.actionId = actionId := Subtype.ext hAction
        rw [EntryCore.mk.injEq]
        exact ⟨hOwn, hPrintedTime, hNamed, hDigest, hStage, rfl⟩
      rw [Evidence.core, hData, ok_bind, hContent, hNow]
      change (if h : _ then _ else _) = _
      rw [dif_pos hPrinted, hSame]
    rw [planned, hFirst, ih hAdvances.valid hRest]
    rfl

end AppendAll

/-! ## A recorded action -/

/-- recordAction, with what it returns and the state that it writes. -/
def recordAction (options : Options) (access : JsValue) (record : ActionLedgerRecord) (clock : Clock) (store : Store) :
    Except JsError (List LedgerEntry × ActionLedgerState) := do
  let tenantId ← authorize options access .append
  let record ← normalizeActionRecord record
  format.update (recordActionOp tenantId record clock) store

section Record

variable {options : Options} {access : JsValue} {record : ActionLedgerRecord} {clock : Clock} {store : Store}
  {tenantId : Identifier} {entries : List LedgerEntry} {state after : ActionLedgerState}

theorem recordAction_ok (hAccess : authorize options access .append = .ok tenantId)
    (h : recordAction options access record clock store = .ok (entries, after)) :
    normalizeActionRecord record = .ok record ∧
      recordActionOp tenantId record clock (stateOf store) = (.ok entries, after) ∧
      format.read store = .ok (stateOf store) := by
  obtain ⟨own, hOwn, h⟩ := bind_eq_ok h
  cases hAccess.symm.trans hOwn
  obtain ⟨normalized, hRecord, h⟩ := bind_eq_ok h
  cases normalizeActionRecord_ok hRecord
  refine ⟨hRecord, (format_accepts.update_ok h).1, ?_⟩
  obtain ⟨state, hRead, _⟩ := bind_eq_ok h
  rw [hRead, format_accepts.read_ok hRead]
  rfl

theorem entriesForAction_eq (state : ActionLedgerState) (tenantId actionId : Identifier) :
    entriesForAction state tenantId actionId = (entriesOf tenantId state.entries).filter (·.actionId = actionId) := by
  rw [entriesForAction, entriesOf, List.filter_filter]
  refine List.filter_congr fun entry _ => ?_
  rw [Bool.and_comm, Bool.decide_and]

/-- After the first append of a call, none drops an entry of its own tenant. -/
def SteadyAfterFirst (settings : Identifier → Settings) (cores : List EntryCore) : List EntryCore → Prop
  | [] => True
  | core :: rest => Steady settings (entered settings cores core) rest

theorem appendAll_named {actionId : Identifier} {actionDigest : Hash} {evidence : List Evidence} (h : Valid state)
    (hRun : appendAll tenantId actionId actionDigest evidence clock state = (.ok entries, after)) :
    ∀ entry ∈ entries, entry.actionId = actionId ∧ entry.actionHash = actionDigest := by
  induction evidence generalizing clock state entries with
  | nil =>
    obtain ⟨rfl, rfl⟩ := pure_ok hRun
    exact fun _ h => (List.not_mem_nil h).elim
  | cons item rest ih =>
    obtain ⟨data, now, entry, mid, others, _, _, hAppend, hRest, rfl⟩ := appendAll_cons hRun
    obtain ⟨_, _, _, _, _, hAction, hDigest, _, _, hAdvances⟩ := appendEntry_ok h hAppend
    exact List.forall_mem_cons.mpr ⟨⟨Subtype.ext hAction, hDigest⟩, ih hAdvances.valid hRest⟩

theorem roomy_unnamed {actionId : Identifier} (h : Valid state) (hNew : entriesForAction state tenantId actionId = [])
    (now : Int) : (entriesOf tenantId (roomy now state).entries).filter (·.actionId = actionId) = [] := by
  refine List.filter_eq_nil_iff.mpr fun entry hEntry => ?_
  have hCore : entry.core ∈ history tenantId (roomy now state).entries := List.mem_map_of_mem hEntry
  have hOld : entry.core ∈ history tenantId state.entries := by
    rw [roomy_history h] at hCore
    split at hCore
    · exact (List.mem_filter.mp hCore).1
    · exact hCore
  obtain ⟨old, hMem, hSame⟩ := List.mem_map.mp hOld
  rw [entriesForAction_eq] at hNew
  have hAction : old.actionId = entry.actionId := congrArg EntryCore.actionId hSame
  rw [← hAction]
  exact List.filter_eq_nil_iff.mp hNew old hMem

theorem returned_eq_stored_iff {actionId : Identifier} {actionDigest : Hash} {item : Evidence} {rest : List Evidence}
    (h : Valid state) (hNew : entriesForAction state tenantId actionId = [])
    (hRun : appendAll tenantId actionId actionDigest (item :: rest) clock state = (.ok entries, after)) :
    entries = entriesForAction after tenantId actionId ↔
      SteadyAfterFirst (settingsOf · state.tenants) (state.entries.map LedgerEntry.core)
        (entries.map LedgerEntry.core) := by
  have hNamed := appendAll_named h hRun
  obtain ⟨_, _, _, hAll⟩ := appendAll_ok h hRun
  obtain ⟨data, now, entry, mid, others, _, _, hAppend, hRest, rfl⟩ := appendAll_cons hRun
  obtain ⟨_, _, _, hOwn, hTime, _, _, _, _, hAdvances⟩ := appendEntry_ok h hAppend
  obtain ⟨hLast, hNumber⟩ := appendEntry_last h hAppend
  have hMid : Holds mid (entered (settingsOf · state.tenants) (state.entries.map LedgerEntry.core) entry.core) :=
    (holds_cores state).append h hAppend
  have hSettings : (settingsOf · mid.tenants) = (settingsOf · state.tenants) := funext hAdvances.settings
  change _ ↔ Steady _ _ _
  rw [entriesForAction_eq]
  constructor
  · intro hStored
    have hIncreasing : ((entry :: others).map (·.sequence.val)).Pairwise (· < ·) := by
      rw [hStored]
      exact (hAll.valid.increasing tenantId).sublist (List.filter_sublist.map _)
    rw [List.map_cons, hNumber] at hIncreasing
    have hSteady := steady_of_increasing hMid hAdvances.valid hRest hIncreasing
    rwa [hSettings] at hSteady
  · intro hSteady
    rw [← hSettings] at hSteady hMid
    rw [own_of_steady hMid hAdvances.valid hRest hSteady, hLast, List.append_assoc, List.filter_append,
      roomy_unnamed h hNew, List.nil_append]
    exact (List.filter_eq_self.mpr fun entry hEntry => decide_eq_true (hNamed entry hEntry).1).symm

/-! ## The file after a call -/

def withTenant (tenantId : Identifier) (tenants : List LedgerTenantState) : List LedgerTenantState :=
  if tenantId ∈ tenants.map (·.tenantId) then tenants else tenants ++ [freshTenant tenantId]

theorem rotateTenants_described (now : Int) (entries : List LedgerEntry) (tenants : List LedgerTenantState) :
    (rotateTenants now entries tenants).tenants.map LedgerTenantState.described =
      tenants.map LedgerTenantState.described := by
  induction tenants generalizing entries with
  | nil => rfl
  | cons tenant rest ih =>
    have hTenant : (rotateTenant now entries tenant).2.described = tenant.described := by
      rw [rotateTenant]
      split
      · rfl
      · split
        · rfl
        · dsimp only
          split
          · rfl
          · rfl
    rw [rotateTenants]
    dsimp only
    rw [List.map_cons, List.map_cons, ih, hTenant]

theorem getOrCreateTenant_tenants {found : LedgerTenantState}
    (hRun : getOrCreateTenant tenantId state = (.ok found, after)) : after.tenants = withTenant tenantId state.tenants := by
  rw [withTenant]
  rcases getOrCreateTenant_cases hRun with ⟨hFind, rfl⟩ | ⟨hFind, _, _, rfl⟩
  · rw [if_pos]
    by_contra hAbsent
    rw [find_none_iff.mpr hAbsent] at hFind
    cases hFind
  · rw [if_neg (find_none_iff.mp hFind)]

theorem described_ids {tenants tenants' : List LedgerTenantState}
    (h : tenants'.map LedgerTenantState.described = tenants.map LedgerTenantState.described) :
    tenants'.map (·.tenantId) = tenants.map (·.tenantId) := by
  have hFirst := congrArg (List.map fun described => described.1.1) h
  rwa [List.map_map, List.map_map] at hFirst

theorem appendEntry_tenants {actionName : String} {actionDigest : Hash} {stage : LedgerStage} {data : JsValue} {now : Int}
    {entry : LedgerEntry} (hRun : appendEntry tenantId actionName actionDigest stage data now state = (.ok entry, after)) :
    after.tenants.map LedgerTenantState.described =
      (withTenant tenantId state.tenants).map LedgerTenantState.described := by
  obtain ⟨_, first, tenant, third, core, hFirst, _, hThird, _, _, _, _, _, _, rfl, rfl⟩ := appendEntry_cases hRun
  have hRoomy : (roomy now first).tenants.map LedgerTenantState.described =
      first.tenants.map LedgerTenantState.described := by
    rw [roomy]
    split
    · exact rotateTenants_described now first.entries first.tenants
    · rfl
  have hFound : tenantId ∈ first.tenants.map (·.tenantId) := by
    rw [getOrCreateTenant_tenants hFirst, withTenant]
    split
    · assumption
    · simp [freshTenant]
  have hThirdTenants : third.tenants = (roomy now first).tenants := by
    rw [getOrCreateTenant_tenants hThird, withTenant, if_pos (by rw [described_ids hRoomy]; exact hFound)]
  rw [← getOrCreateTenant_tenants hFirst, ← hRoomy, ← hThirdTenants, pushed, assign, List.map_map]
  refine List.map_congr_left fun tenant _ => ?_
  rw [Function.comp_apply]
  split
  · rfl
  · rfl

theorem appendAll_leaves {actionId : Identifier} {actionDigest : Hash} {evidence : List Evidence} {cores : List EntryCore}
    (hHolds : Holds state cores) (h : Valid state)
    (hRun : appendAll tenantId actionId actionDigest evidence clock state = (.ok entries, after)) :
    Holds after ((entries.map LedgerEntry.core).foldl (entered (settingsOf · state.tenants)) cores) ∧
      (evidence ≠ [] ∨ tenantId ∈ state.tenants.map (·.tenantId) →
        after.tenants.map LedgerTenantState.described =
          (withTenant tenantId state.tenants).map LedgerTenantState.described) := by
  induction evidence generalizing clock state entries cores with
  | nil =>
    obtain ⟨rfl, rfl⟩ := pure_ok hRun
    refine ⟨hHolds, fun hStored => ?_⟩
    rw [withTenant, if_pos (hStored.resolve_left (not_not.mpr rfl))]
  | cons item rest ih =>
    obtain ⟨data, now, entry, mid, others, _, _, hAppend, hRest, rfl⟩ := appendAll_cons hRun
    obtain ⟨_, _, _, hOwn, _, _, _, _, _, hAdvances⟩ := appendEntry_ok h hAppend
    have hTenants := appendEntry_tenants hAppend
    have hStored : tenantId ∈ mid.tenants.map (·.tenantId) := by
      have hEntry : entry ∈ mid.entries := by
        have hMem : entry ∈ entriesOf tenantId mid.entries := by
          rw [(appendEntry_last h hAppend).1]
          exact List.mem_append_right _ (List.mem_singleton_self _)
        exact (mem_entriesOf.mp hMem).1
      have hTracked := hAdvances.valid.tracked entry hEntry
      rwa [show entry.tenantId = tenantId from hOwn] at hTracked
    obtain ⟨hAfter, hLater⟩ := ih (hHolds.append h hAppend) hAdvances.valid hRest
    rw [funext hAdvances.settings] at hAfter
    refine ⟨hAfter, fun _ => ?_⟩
    rw [hLater (.inr hStored), withTenant, if_pos hStored, hTenants]

/-- Every ledger of these tenants and entries can be read. -/
def Fits (tenants : List LedgerTenantState) (cores : List EntryCore) : Prop :=
  ∀ state, Valid state → Holds state cores →
    state.tenants.map LedgerTenantState.described = tenants.map LedgerTenantState.described →
    format.bytes state ≤ format.maxBytes

theorem fits_iff {tenants : List LedgerTenantState} {cores : List EntryCore} (h : Valid state) (hHolds : Holds state cores)
    (hTenants : state.tenants.map LedgerTenantState.described = tenants.map LedgerTenantState.described) :
    Fits tenants cores ↔ format.bytes state ≤ format.maxBytes := by
  constructor
  · exact fun hFits => hFits state h hHolds hTenants
  · intro hBytes other hOther hSame hDescribed
    rwa [bytes_congr hOther h (fun tenantId => (hSame tenantId).trans (hHolds tenantId).symm)
      (hDescribed.trans hTenants.symm)]

/-! ## Recording an action twice -/

/-- The tenant has a timeline of the action already, or the entries to come drop none of its own after the first of them,
and fit into the file. -/
def Undisturbed (state : ActionLedgerState) (tenantId : Identifier) (record : ActionLedgerRecord) (clock : Clock) : Prop :=
  let settings := (settingsOf · state.tenants)
  let stored := state.entries.map LedgerEntry.core
  let cores := planned tenantId record.envelope.actionId (actionHash record.envelope) record.evidence clock
  entriesForAction state tenantId record.envelope.actionId = [] →
    SteadyAfterFirst settings stored cores ∧ Fits (withTenant tenantId state.tenants) (cores.foldl (entered settings) stored)

theorem read_bytes {stored : ActionLedgerState} (h : format.read (some stored) = .ok stored) :
    format.bytes stored ≤ format.maxBytes := by
  rw [StoreFormat.read] at h
  split at h
  · cases h
  · exact Nat.not_lt.mp ‹_›

theorem recordAction_again {stored : ActionLedgerState} {first : LedgerEntry} {rest : List LedgerEntry}
    (hValid : Valid stored) (hBytes : format.bytes stored ≤ format.maxBytes)
    (hAccess : authorize options access .append = .ok tenantId) (hNormal : normalizeActionRecord record = .ok record)
    (hOld : entriesForAction stored tenantId record.envelope.actionId = first :: rest)
    (hDigest : first.actionHash = actionHash record.envelope) (clock : Clock) :
    recordAction options access record clock (some stored) = .ok (first :: rest, stored) := by
  have hRun : recordActionOp tenantId record clock stored = (.ok (first :: rest), stored) := by
    rw [recordActionOp, get_bind, hOld]
    exact bind_of_ok (throwIf_of_not (not_not.mpr hDigest) _ _)
  have hRead : format.read (some stored) = .ok stored := format_accepts.read_of_size hValid.accepted hBytes
  rw [recordAction, hAccess, ok_bind, hNormal, ok_bind, format_accepts.update_of hRead hRun hValid.accepted]

/-- What a call returns is what it stores, and what the next call with the same record returns and leaves, exactly when the
call is undisturbed. -/
theorem recorded_as_returned_iff (options : Options) (events : List Event) (store : Store)
    (run : (machine options).FreeRun events store) (access : JsValue) (record : ActionLedgerRecord) (clock : Clock)
    (tenantId : Identifier) (hAccess : authorize options access .append = .ok tenantId) (entries : List LedgerEntry)
    (after : ActionLedgerState) (h : recordAction options access record clock store = .ok (entries, after)) :
    (entries = entriesForAction after tenantId record.envelope.actionId ∧
      ∀ clock, recordAction options access record clock (some after) = .ok (entries, after)) ↔
      Undisturbed (stateOf store) tenantId record clock := by
  have hValid := run_valid run
  obtain ⟨hNormal, hRun, hRead⟩ := recordAction_ok hAccess h
  rw [recordActionOp, get_bind] at hRun
  cases hOld : entriesForAction (stateOf store) tenantId record.envelope.actionId with
  | cons first rest =>
    rw [hOld] at hRun
    obtain ⟨_, _, hSame, hRun⟩ := bind_ok hRun
    obtain ⟨hDigest, rfl⟩ := throwIf_ok hSame
    obtain ⟨rfl, rfl⟩ := pure_ok hRun
    have hAgain : ∀ clock, recordAction options access record clock (some (stateOf store)) =
        .ok (first :: rest, stateOf store) := by
      cases store with
      | none => cases hOld
      | some stored => exact recordAction_again hValid (read_bytes hRead) hAccess hNormal hOld (not_not.mp hDigest)
    rw [Undisturbed, hOld]
    exact ⟨fun _ h => absurd h (List.cons_ne_nil first rest), fun _ => ⟨rfl, hAgain⟩⟩
  | nil =>
    rw [hOld] at hRun
    obtain ⟨item, rest, hEvidence⟩ : ∃ item rest, record.evidence = item :: rest := ⟨_, _, rfl⟩
    have hAppend : appendAll tenantId record.envelope.actionId (actionHash record.envelope) (item :: rest) clock
        (stateOf store) = (.ok entries, after) := hEvidence ▸ hRun
    obtain ⟨_, _, _, hAll⟩ := appendAll_ok hValid hAppend
    obtain ⟨hHolds, hTenants⟩ := appendAll_leaves (holds_cores (stateOf store)) hValid hAppend
    have hFits := fits_iff hAll.valid hHolds (hTenants (.inl (List.cons_ne_nil item rest)))
    have hStored := returned_eq_stored_iff hValid hOld hAppend
    have hNamed := appendAll_named hValid hAppend
    have hPlanned : planned tenantId record.envelope.actionId (actionHash record.envelope) record.evidence clock =
        entries.map LedgerEntry.core := hEvidence ▸ planned_eq hValid hAppend
    rw [Undisturbed, hPlanned, hFits, ← hStored, hOld]
    constructor
    · rintro ⟨hSame, hAgain⟩ _
      obtain ⟨_, _, hAgainRead⟩ := recordAction_ok hAccess (hAgain clock)
      exact ⟨hSame, read_bytes hAgainRead⟩
    · intro hUndisturbed
      obtain ⟨hSame, hBytes⟩ := hUndisturbed rfl
      refine ⟨hSame, fun clock => ?_⟩
      obtain ⟨_, _, entry, _, others, _, _, _, _, rfl⟩ := appendAll_cons hAppend
      exact recordAction_again hAll.valid hBytes hAccess hNormal hSame.symm (hNamed entry List.mem_cons_self).2 clock

end Record

/-! ## A full ledger -/

/-- The tenant keeps its entries for a day, and says so once more. -/
def dayEvent : Event := ⟨.configureRetention acmeAccess (.number (.integer 1)), fun _ => some 0⟩

def day : Positive 3650 := ⟨1, by decide⟩

def dayData : LedgerData := ⟨[("retentionDays", .integer 1)], by decide, by decide, by decide +kernel⟩

def dayProfile : (Identifier × Settings) × Option Timestamp := ((acme, ⟨some day, false⟩), none)

/-- An entry of a tenant that configures its retention at the epoch. -/
structure IsDay (entry : LedgerEntry) : Prop where
  tenant : entry.tenantId = acme
  time : entry.timestamp = firstDay
  stage : entry.stage = .retention
  data : entry.data = dayData
  named : entry.actionId ≠ firstName

/-- A ledger with a number of such entries, and what the next one makes of its tenants. -/
structure Filled (n : Nat) (state : ActionLedgerState) : Prop where
  valid : Valid state
  length : state.entries.length = n
  days : ∀ entry ∈ state.entries, IsDay entry
  tenants : (assign acme ({ · with retentionDays := some day }) (withTenant acme state.tenants)).map
    LedgerTenantState.described = [dayProfile]

theorem described_assign {tenants : List LedgerTenantState} (h : tenants.map LedgerTenantState.described = [dayProfile]) :
    (assign acme ({ · with retentionDays := some day }) (withTenant acme tenants)).map LedgerTenantState.described =
      [dayProfile] := by
  obtain ⟨tenant, rfl, hTenant⟩ := List.map_eq_singleton_iff.mp h
  obtain ⟨tenantId, entryCount, headHash, retentionDays, legalHold, deletionRequestedAt⟩ := tenant
  cases hTenant
  rfl

theorem filled_bytes {n : Nat} {state : ActionLedgerState} (h : Filled n state)
    (hTenants : state.tenants.map LedgerTenantState.described = [dayProfile]) :
    format.bytes state ≤ format.maxBytes := by
  have hData : (pretty 3 dayData.toJson).utf8ByteSize ≤ 60 := by decide +kernel
  have hBytes := @bytes_le state h.valid 1020 fun entry hEntry => by
    have hSize := entry_size (number_le h.valid hEntry)
    rw [(h.days entry hEntry).data] at hSize
    omega
  have hOne : state.tenants.length = 1 := by simpa using congrArg List.length hTenants
  have hLength : state.entries.length * 1026 ≤ MAX_ENTRIES * 1026 := Nat.mul_le_mul_right _ h.valid.entriesLength
  change format.bytes state ≤ MAX_LEDGER_BYTES
  rw [MAX_LEDGER_BYTES]
  rw [MAX_ENTRIES] at hLength
  omega

theorem governanceActionId_toList (kind : String) (state : ActionLedgerState) (tenantId : Identifier) :
    (governanceActionId kind state tenantId).toList =
      (("governance-" ++ kind ++ "-" ++ tenantId.val ++ "-").toList ++
        (toString ((entriesOf tenantId state.entries).length + 1)).toList).take 128 := by
  rw [governanceActionId, slice, String.toList_ofList, String.toList_append]

theorem dayName_toList (state : ActionLedgerState) : (governanceActionId "retention" state acme).toList =
    'g' :: ("overnance-retention-acme-".toList ++
      (toString ((entriesOf acme state.entries).length + 1)).toList).take 127 := by
  have hHead : ("governance-" ++ "retention" ++ "-" ++ acme.val ++ "-").toList =
      'g' :: "overnance-retention-acme-".toList := by decide +kernel
  rw [governanceActionId_toList, hHead, List.cons_append, List.take_succ_cons]

theorem dayName_isIdentifier (state : ActionLedgerState) :
    isIdentifier (governanceActionId "retention" state acme) = true := by
  have hPlain : ("overnance-retention-acme-".toList.all fun c => nameChars.contains c && isIdentifierChar c) = true := by
    decide +kernel
  have hDigits : (['0', '1', '2', '3', '4', '5', '6', '7', '8', '9'].all fun c =>
      nameChars.contains c && isIdentifierChar c) = true := by decide
  have hChars := dayName_toList state
  have hRest : ∀ c ∈ ("overnance-retention-acme-".toList ++
      (toString ((entriesOf acme state.entries).length + 1)).toList).take 127,
      nameChars.contains c = true ∧ isIdentifierChar c = true := by
    intro c hc
    rcases List.mem_append.mp (List.mem_of_mem_take hc) with hc | hc
    · exact (Bool.and_eq_true _ _).mp (List.all_eq_true.mp hPlain c hc)
    · exact (Bool.and_eq_true _ _).mp (List.all_eq_true.mp hDigits c (digit_mem (isDigit_repr c hc)))
  refine isIdentifier_of_name ?_ ?_
  · rw [matchesIdentifier, hChars]
    simp only [Bool.and_eq_true, List.all_eq_true, decide_eq_true_eq]
    exact ⟨⟨by decide, fun c hc => (hRest c hc).2⟩, List.length_take_le _ _⟩
  · rw [hChars, List.all_cons, Bool.and_eq_true, List.all_eq_true]
    exact ⟨by decide, fun c hc => (hRest c hc).1⟩

theorem acme_mem {tenants : List LedgerTenantState} (h : tenants.map LedgerTenantState.described = [dayProfile]) :
    acme ∈ tenants.map (·.tenantId) := by
  obtain ⟨tenant, rfl, hTenant⟩ := List.map_eq_singleton_iff.mp h
  exact List.mem_singleton.mpr (congrArg (fun described => described.1.1) hTenant).symm

theorem printable_epoch : Printable 0 := by
  rw [Printable]
  decide +kernel

theorem dayEvent_operation : dayEvent.call.operation acmeOptions =
    .ok ⟨acme, fun clock => do let _ ← configureRetentionOp acme (some day) clock⟩ := by
  rw [dayEvent, Call.operation, acme_authorized]
  rfl

theorem dayEvent_performed {store : Store} (hValid : Valid (stateOf store)) (hRead : format.read store = .ok (stateOf store))
    (hTenant : acme ∈ (stateOf store).tenants.map (·.tenantId) ∨ (stateOf store).tenants.length < MAX_TENANTS)
    (hRoom : (stateOf store).entries.length < MAX_ENTRIES) :
    ∃ entry after, perform acmeOptions dayEvent.call dayEvent.clock store = .ok after ∧ Valid after ∧
      after.entries = (stateOf store).entries ++ [entry] ∧
      after.tenants.map LedgerTenantState.described =
        (assign acme ({ · with retentionDays := some day }) (withTenant acme (stateOf store).tenants)).map
          LedgerTenantState.described ∧
      entry.tenantId = acme ∧ entry.timestamp = firstDay ∧ entry.stage = .retention ∧ entry.data = dayData ∧
      entry.actionId.val = governanceActionId "retention" (stateOf store) acme := by
  obtain ⟨found, created, hCreate, hCreated⟩ := getOrCreateTenant_created hValid hTenant
  let mid : ActionLedgerState :=
    { created with tenants := assign acme ({ · with retentionDays := some day }) created.tenants }
  have hMid : Valid mid := @Valid.assign _ acme ({ · with retentionDays := some day }) hCreated.valid
    fun _ => ⟨rfl, rfl, rfl⟩
  have hIds : mid.tenants.map (·.tenantId) = created.tenants.map (·.tenantId) :=
    @assign_ids acme ({ · with retentionDays := some day }) (fun _ => rfl) created.tenants
  have hOwn : acme ∈ mid.tenants.map (·.tenantId) := by
    rw [hIds, ← hCreated.found.2]
    exact List.mem_map_of_mem hCreated.found.1
  have hMidRoom : mid.entries.length < MAX_ENTRIES := by
    rw [show mid.entries = (stateOf store).entries from hCreated.entries]
    exact hRoom
  have hFits : (roomy 0 mid).entries.length < MAX_ENTRIES := by
    rw [roomy, if_neg (Nat.not_le.mpr hMidRoom)]
    exact hMidRoom
  obtain ⟨entry, appended, hAppend⟩ := @appendEntry_of acme (hashOf ("retention:" ++ acme.val)) .retention _ 0 mid
    ⟨governanceActionId "retention" mid acme, dayName_isIdentifier mid⟩ dayData hMid (.inl hOwn) hFits
    printable_epoch (normalizeData_toValue dayData)
  have hStored := appendEntry_stored hMidRoom hAppend
  have hTenants := appendEntry_tenants hAppend
  rw [withTenant, if_pos hOwn] at hTenants
  obtain ⟨_, _, _, hOwner, hTime, hAction, _, hStage, hData, hAdvances⟩ := appendEntry_ok hMid hAppend
  have hKept : acme ∈ appended.tenants.map (·.tenantId) := by
    rw [described_ids hTenants]
    exact hOwn
  obtain ⟨tenant, after, hAgain, hAfter⟩ := getOrCreateTenant_created hAdvances.valid (.inl hKept)
  have hSame := getOrCreateTenant_stored hAdvances.valid hKept hAgain
  have hAssign : updateTenant acme ({ · with retentionDays := some day }) created = (.ok (), mid) := rfl
  have hEntry : governanceEntry acme "retention" "retention" .retention
      (.object [("retentionDays", retentionValue (some day))]) dayEvent.clock mid = (.ok entry, appended) := hAppend
  have hRun : configureRetentionOp acme (some day) dayEvent.clock (stateOf store) = (.ok tenant, appended) := by
    rw [configureRetentionOp, bind_of_ok hCreate, bind_of_ok hAssign, bind_of_ok hEntry, hAgain, hSame]
  refine ⟨entry, appended, perform_of dayEvent_operation hRead (bind_of_ok hRun) hAdvances.valid, hAdvances.valid, ?_, ?_,
    hOwner, Subtype.ext (hTime.trans (by decide +kernel)), hStage, ?_,
    hAction.trans (governanceActionId_congr hCreated.entries "retention" acme)⟩
  · rw [hStored]
    exact congrArg (· ++ [entry]) hCreated.entries
  · rw [hTenants, ← getOrCreateTenant_tenants hCreate]
  · have hContent : normalizeData (.object [("retentionDays", .number (.integer 1))]) = .ok dayData :=
      normalizeData_toValue dayData
    exact Except.ok.inj (hData.symm.trans hContent)

theorem Filled.next {n : Nat} {store : Store} (h : Filled n (stateOf store)) (hRoom : n < MAX_ENTRIES)
    (hRead : format.read store = .ok (stateOf store)) :
    ∃ after, perform acmeOptions dayEvent.call dayEvent.clock store = .ok after ∧ Filled (n + 1) after ∧
      after.tenants.map LedgerTenantState.described = [dayProfile] := by
  have hFree : acme ∈ (stateOf store).tenants.map (·.tenantId) ∨ (stateOf store).tenants.length < MAX_TENANTS := by
    by_cases hStored : acme ∈ (stateOf store).tenants.map (·.tenantId)
    · exact .inl hStored
    · have hLength := congrArg List.length h.tenants
      rw [withTenant, if_neg hStored] at hLength
      simp only [assign, List.length_map, List.length_append, List.length_singleton] at hLength
      refine .inr ?_
      rw [MAX_TENANTS]
      omega
  obtain ⟨entry, after, hPerform, hValid, hStored, hTenants, hOwn, hTime, hStage, hData, hName⟩ :=
    dayEvent_performed h.valid hRead hFree (h.length.symm ▸ hRoom)
  rw [h.tenants] at hTenants
  have hOther : entry.actionId ≠ firstName := by
    intro hSame
    have hChars := congrArg (fun s : String => s.toList.head?) (hName.symm.trans (congrArg Subtype.val hSame))
    simp only [dayName_toList, List.head?_cons] at hChars
    revert hChars
    decide
  refine ⟨after, hPerform, ⟨hValid, ?_, ?_, described_assign hTenants⟩, hTenants⟩
  · rw [hStored, List.length_append, h.length, List.length_singleton]
  · rw [hStored]
    exact List.forall_mem_append.mpr ⟨h.days, List.forall_mem_singleton.mpr ⟨hOwn, hTime, hStage, hData, hOther⟩⟩

/-- By induction on the number of calls. -/
theorem filled_run (n : Nat) (hRoom : n < MAX_ENTRIES) : ∃ state,
    (machine acmeOptions).FreeRun (List.replicate (n + 1) dayEvent) (some state) ∧ Filled (n + 1) state ∧
      state.tenants.map LedgerTenantState.described = [dayProfile] := by
  have hTaken : ∀ {store : Store} {after : ActionLedgerState},
      perform acmeOptions dayEvent.call dayEvent.clock store = .ok after → take acmeOptions store dayEvent = some after := by
    intro store after hPerform
    rw [take, hPerform]
  induction n with
  | zero =>
    have hEmpty : Filled 0 (stateOf none) := ⟨Valid.empty, rfl, fun _ h => (List.not_mem_nil h).elim, rfl⟩
    obtain ⟨after, hPerform, hFilled, hDescribed⟩ := hEmpty.next (by decide) rfl
    exact ⟨after, Machine.Run.next .start trivial (congrArg some (hTaken hPerform)), hFilled, hDescribed⟩
  | succ n ih =>
    obtain ⟨state, hRun, hFilled, hDescribed⟩ := ih (by omega)
    have hRead : format.read (some state) = .ok state :=
      format_accepts.read_of_size hFilled.valid.accepted (filled_bytes hFilled hDescribed)
    obtain ⟨after, hPerform, hNext, hDescribed'⟩ := @Filled.next _ (some state) hFilled hRoom hRead
    refine ⟨after, ?_, hNext, hDescribed'⟩
    rw [List.replicate_succ']
    exact Machine.Run.next hRun trivial (congrArg some (hTaken hPerform))

/-! ## Recording into a full ledger -/

def lateReading : Int := 172800000

theorem printable_late : Printable lateReading := by
  rw [Printable]
  decide +kernel

theorem time_firstDay : timeOf firstDay = 0 := timeOf_eq (by decide +kernel : firstDay.val = Date.toISOString 0)

theorem IsDay.expires {entry : LedgerEntry} (h : IsDay entry) : (Settings.mk (some day) false).Expires lateReading entry.core := by
  refine ⟨day, rfl, rfl, ?_⟩
  change timeOf entry.timestamp < _
  rw [h.time, time_firstDay]
  decide

theorem settingsOf_described {tenants : List LedgerTenantState}
    (h : tenants.map LedgerTenantState.described = [dayProfile]) : settingsOf acme tenants = ⟨some day, false⟩ := by
  obtain ⟨tenant, rfl, hTenant⟩ := List.map_eq_singleton_iff.mp h
  obtain ⟨tenantId, entryCount, headHash, retentionDays, legalHold, deletionRequestedAt⟩ := tenant
  cases hTenant
  rfl

theorem entriesOf_acme {state : ActionLedgerState} (h : Valid state)
    (hTenants : state.tenants.map LedgerTenantState.described = [dayProfile]) :
    entriesOf acme state.entries = state.entries := by
  refine entriesOf_eq_self fun entry hEntry => ?_
  obtain ⟨tenant, hOnly, hTenant⟩ := List.map_eq_singleton_iff.mp hTenants
  have hTracked := h.tracked entry hEntry
  rw [hOnly] at hTracked
  exact (List.mem_singleton.mp hTracked).trans (congrArg (fun described => described.1.1) hTenant)

section Late

variable {state mid : ActionLedgerState} {actionId : Identifier} {digest : Hash} {stage : LedgerStage} {data : JsValue}
  {entry : LedgerEntry} (h : Filled 1999 state) (hTenants : state.tenants.map LedgerTenantState.described = [dayProfile])
  (hRun : appendEntry acme actionId.val digest stage data lateReading state = (.ok entry, mid))
include h hTenants hRun

theorem late_rotation : mid.tenants.map LedgerTenantState.described = [dayProfile] ∧ mid.entries.length = MAX_ENTRIES ∧
    (roomy lateReading mid).entries.length ≤ 1 := by
  have hRoom : state.entries.length < MAX_ENTRIES := h.length.symm ▸ (by decide : 1999 < MAX_ENTRIES)
  have hStored := appendEntry_stored hRoom hRun
  obtain ⟨_, _, _, _, _, _, _, _, _, hAdvances⟩ := appendEntry_ok h.valid hRun
  have hMid : mid.tenants.map LedgerTenantState.described = [dayProfile] := by
    rw [appendEntry_tenants hRun, withTenant, if_pos (acme_mem hTenants), hTenants]
  have hLength : mid.entries.length = MAX_ENTRIES := by
    rw [hStored, List.length_append, h.length]
    rfl
  refine ⟨hMid, hLength, ?_⟩
  have hRoomy : (roomy lateReading mid).tenants.map LedgerTenantState.described = [dayProfile] := by
    rw [roomy, if_pos (Nat.le_of_eq hLength.symm), ← hMid]
    exact rotateTenants_described lateReading mid.entries mid.tenants
  have hHistory := @roomy_history lateReading mid hAdvances.valid acme
  rw [if_pos (Nat.le_of_eq hLength.symm), settingsOf_described hMid, history, history, hStored,
    entriesOf_acme (roomy_valid hAdvances.valid) hRoomy, entriesOf_append, entriesOf_acme h.valid hTenants,
    List.map_append, List.filter_append] at hHistory
  have hGone : (state.entries.map LedgerEntry.core).filter (fun core =>
      ¬(Settings.mk (some day) false).Expires lateReading core) = [] := by
    refine List.filter_eq_nil_iff.mpr fun core hCore => ?_
    obtain ⟨old, hOld, rfl⟩ := List.mem_map.mp hCore
    simpa using (h.days old hOld).expires
  rw [hGone, List.nil_append] at hHistory
  have hCount := congrArg List.length hHistory
  rw [List.length_map] at hCount
  rw [hCount]
  have hOne : (entriesOf acme [entry]).length ≤ 1 := List.length_filter_le _ _
  exact (List.length_filter_le _ _).trans ((Nat.le_of_eq (List.length_map _)).trans hOne)

end Late

theorem appendAll_next {tenantId actionId : Identifier} {digest : Hash} {item : Evidence} {evidence : List Evidence}
    {clock : Clock} {state mid after : ActionLedgerState} {data : JsValue} {now : Int} {entry : LedgerEntry}
    {others : List LedgerEntry} (hData : item.data = .ok data) (hReading : format.timestamp (clock 0) = .ok now)
    (hAppend : appendEntry tenantId actionId.val digest item.stage data now state = (.ok entry, mid))
    (hRest : appendAll tenantId actionId digest evidence (fun n => clock (n + 1)) mid = (.ok others, after)) :
    appendAll tenantId actionId digest (item :: evidence) clock state = (.ok (entry :: others), after) := by
  rw [appendAll, hData, lift_bind, hReading, lift_bind, bind_of_ok hAppend, bind_of_ok hRest]
  rfl

theorem late_recording {state : ActionLedgerState} {actionId : Identifier} {digest : Hash} {first second : Evidence}
    {rest : List Evidence} (h : Filled 1999 state)
    (hTenants : state.tenants.map LedgerTenantState.described = [dayProfile])
    (hNew : entriesForAction state acme actionId = [])
    (hEvidence : ∀ item ∈ first :: second :: rest, item.Accepted) (hShort : rest.length ≤ 1000) :
    ∃ entries after, appendAll acme actionId digest (first :: second :: rest) (fun _ => some lateReading) state =
      (.ok entries, after) ∧ Valid after ∧ entries ≠ entriesForAction after acme actionId := by
  have hFull : 1000 + 2 ≤ MAX_ENTRIES := by decide
  have hReading : format.timestamp (some lateReading) = .ok lateReading := rfl
  rw [List.forall_mem_cons, List.forall_mem_cons] at hEvidence
  obtain ⟨⟨content, hContent⟩, ⟨content', hContent'⟩, hRest⟩ := hEvidence
  obtain ⟨data, hData, hContent⟩ := bind_eq_ok hContent
  obtain ⟨data', hData', hContent'⟩ := bind_eq_ok hContent'
  have hOpen : (roomy lateReading state).entries.length < MAX_ENTRIES := by
    rw [roomy, if_neg (by rw [h.length]; decide), h.length]
    decide
  obtain ⟨entry, mid, hFirst⟩ := @appendEntry_of acme digest first.stage data lateReading state actionId content h.valid
    (.inl (acme_mem hTenants)) hOpen printable_late hContent
  obtain ⟨_, _, _, _, _, _, _, _, _, hAdvances⟩ := appendEntry_ok h.valid hFirst
  obtain ⟨hMidTenants, hMidLength, hMidRoom⟩ := late_rotation h hTenants hFirst
  obtain ⟨entry', mid', hSecond⟩ := @appendEntry_of acme digest second.stage data' lateReading mid actionId content'
    hAdvances.valid (.inl (acme_mem hMidTenants)) (by omega) printable_late hContent'
  obtain ⟨_, _, _, hOwn, hTime, _, _, _, _, hAdvances'⟩ := appendEntry_ok hAdvances.valid hSecond
  have hMidTenants' : mid'.tenants.map LedgerTenantState.described = [dayProfile] := by
    rw [appendEntry_tenants hSecond, withTenant, if_pos (acme_mem hMidTenants), hMidTenants]
  have hShort' : mid'.entries.length + rest.length ≤ MAX_ENTRIES := by
    have hLast := congrArg List.length (appendEntry_last hAdvances.valid hSecond).1
    rw [entriesOf_acme hAdvances'.valid hMidTenants', List.length_append, List.length_singleton] at hLast
    have hOwnLength : (entriesOf acme (roomy lateReading mid).entries).length ≤ (roomy lateReading mid).entries.length :=
      List.length_filter_le _ _
    omega
  obtain ⟨others, after, hOthers⟩ := @appendAll_of acme actionId digest mid' rest (fun _ => some lateReading) lateReading
    hAdvances'.valid (.inl (acme_mem hMidTenants')) hShort' (fun _ => rfl) hReading printable_late hRest
  have hRun : appendAll acme actionId digest (first :: second :: rest) (fun _ => some lateReading) state =
      (.ok (entry :: entry' :: others), after) :=
    appendAll_next hData hReading hFirst (appendAll_next hData' hReading hSecond hOthers)
  obtain ⟨_, _, _, hAll⟩ := appendAll_ok h.valid hRun
  refine ⟨_, after, hRun, hAll.valid, fun hSame => ?_⟩
  obtain ⟨hKeeps, _⟩ := (returned_eq_stored_iff h.valid hNew hRun).mp hSame
  have hHolds := (holds_cores state).append h.valid hFirst
  obtain ⟨old, hOld⟩ : ∃ old, old ∈ state.entries := List.exists_mem_of_length_pos (by rw [h.length]; decide)
  refine hKeeps ⟨by rw [hHolds.length, hMidLength], old.core, ?_, (h.days old hOld).tenant.trans hOwn.symm, ?_⟩
  · have hMem : old.core ∈ history acme mid.entries := by
      rw [history, entriesOf_acme hAdvances.valid hMidTenants,
        appendEntry_stored (h.length.symm ▸ (by decide : 1999 < MAX_ENTRIES)) hFirst]
      exact List.mem_map_of_mem (List.mem_append_left _ hOld)
    exact (mem_cores_iff hHolds (h.days old hOld).tenant).mpr hMem
  · dsimp only
    rw [show old.core.tenantId = acme from (h.days old hOld).tenant, settingsOf_described hTenants, timeOf_eq hTime]
    exact (h.days old hOld).expires

theorem recordAction_of {options : Options} {access : JsValue} {tenantId : Identifier} {record : ActionLedgerRecord}
    {clock : Clock} {store : Store} {entries : List LedgerEntry} {after : ActionLedgerState}
    (hAccess : authorize options access .append = .ok tenantId) (hNormal : normalizeActionRecord record = .ok record)
    (hRead : format.read store = .ok (stateOf store))
    (hNew : entriesForAction (stateOf store) tenantId record.envelope.actionId = [])
    (hRun : appendAll tenantId record.envelope.actionId (actionHash record.envelope) record.evidence clock (stateOf store) =
      (.ok entries, after)) (hValid : Valid after) :
    recordAction options access record clock store = .ok (entries, after) := by
  have hOp : recordActionOp tenantId record clock (stateOf store) = (.ok entries, after) := by
    rw [recordActionOp, get_bind, hNew]
    exact hRun
  rw [recordAction, hAccess, ok_bind, hNormal, ok_bind, format_accepts.update_of hRead hOp hValid.accepted]

/-- Two days after 1999 entries of a tenant that keeps its entries for a day, an action is recorded. -/
theorem returned_not_stored : ∃ state entries after,
    (machine acmeOptions).FreeRun (List.replicate 1999 dayEvent) (some state) ∧
    authorize acmeOptions acmeAccess .append = .ok acme ∧
    recordAction acmeOptions acmeAccess (recordOf (requestedAction firstName)) (fun _ => some lateReading) (some state) =
      .ok (entries, after) ∧
    entries ≠ entriesForAction after acme firstName := by
  obtain ⟨state, hRun, hFilled, hTenants⟩ := filled_run 1998 (by decide)
  have hNormal := recordOf_accepted (requestedAction_valid firstName)
  have hRead : format.read (some state) = .ok state :=
    format_accepts.read_of_size hFilled.valid.accepted (filled_bytes hFilled hTenants)
  have hNew : entriesForAction state acme firstName = [] := by
    rw [entriesForAction_eq, List.filter_eq_nil_iff]
    intro entry hEntry hSame
    exact (hFilled.days entry (mem_entriesOf.mp hEntry).1).named (of_decide_eq_true hSame)
  obtain ⟨entries, after, hAppend, hValid, hOther⟩ := @late_recording state firstName
    (actionHash (requestedAction firstName).envelope) _ _ _ hFilled hTenants hNew (@evidence_accepted (recordOf (requestedAction firstName)) rfl) (by decide)
  exact ⟨state, entries, after, hRun, acme_authorized .append,
    recordAction_of (acme_authorized .append) hNormal hRead hNew hAppend hValid, hOther⟩

theorem perform_recordAction {options : Options} {access : JsValue} {tenantId : Identifier} {record : ActionLedgerRecord}
    {clock : Clock} {store : Store} {entries : List LedgerEntry} {after : ActionLedgerState}
    (hAccess : authorize options access .append = .ok tenantId) (hValid : Valid after)
    (h : recordAction options access record clock store = .ok (entries, after)) :
    perform options (.recordAction access record) clock store = .ok after := by
  obtain ⟨hNormal, hRun, hRead⟩ := recordAction_ok hAccess h
  exact perform_of (recordAction_operation hAccess hNormal) hRead (bind_of_ok hRun) hValid

theorem new_recorded {stored : StoredAction} (hAction : stored.Valid)
    (hVersion : stored.envelope.policy.version.val < 10 ^ 9) (hLength : (recordOf stored).evidence.length ≤ 100) :
    ∃ entries after, recordAction acmeOptions acmeAccess (recordOf stored) (fun _ => some 0) none = .ok (entries, after) ∧
      after.entries = entries ∧ Valid after ∧
      List.Forall₂ (Entered acme stored.envelope.actionId (actionHash stored.envelope)) (recordOf stored).evidence entries ∧
      format.read (some after) = .ok after := by
  have hTenants : (stateOf none).tenants.length < MAX_TENANTS := by decide
  have hRoom : (stateOf none).entries.length + (recordOf stored).evidence.length ≤ MAX_ENTRIES :=
    (Nat.zero_add _).trans_le (hLength.trans (by decide))
  have hReading : format.timestamp (some 0) = .ok 0 := rfl
  obtain ⟨entries, after, hAppend⟩ := @appendAll_of acme stored.envelope.actionId (actionHash stored.envelope)
    (stateOf none) (recordOf stored).evidence (fun _ => some 0) 0 Valid.empty (.inr hTenants) hRoom
    (fun _ => rfl) hReading printable_epoch (evidence_accepted rfl)
  obtain ⟨hStored, hValid, hEntered⟩ := appendAll_stored Valid.empty hRoom hAppend
  have hRecord : recordAction acmeOptions acmeAccess (recordOf stored) (fun _ => some 0) none = .ok (entries, after) :=
    recordAction_of (acme_authorized .append) (recordOf_accepted hAction) rfl rfl hAppend hValid
  have hOnly : after.entries = entries := hStored
  have hBrief : ∀ evidence ∈ (recordOf stored).evidence, evidence.Brief := evidence_brief rfl hVersion
  have hBytes : format.bytes after ≤ format.maxBytes := by
    refine short_bytes hValid ?_ fun entry hEntry => ?_
    · rwa [hOnly, ← hEntered.length_eq]
    · obtain ⟨i, hi, rfl⟩ := List.getElem_of_mem (hOnly ▸ hEntry)
      have hItem : i < (recordOf stored).evidence.length := hEntered.length_eq ▸ hi
      exact entered_size (hBrief _ (List.getElem_mem hItem)) (hEntered.get hItem hi)
  exact ⟨entries, after, hRecord, hOnly, hValid, hEntered, format_accepts.read_of_size hValid.accepted hBytes⟩

theorem requested_recorded (actionId : Identifier) : ∃ entries after,
    recordAction acmeOptions acmeAccess (recordOf (requestedAction actionId)) (fun _ => some 0) none =
      .ok (entries, after) ∧ after.entries = entries ∧ Valid after ∧
    List.Forall₂ (Entered acme actionId (actionHash (requestedAction actionId).envelope))
      (recordOf (requestedAction actionId)).evidence entries ∧ format.read (some after) = .ok after :=
  new_recorded (requestedAction_valid actionId) (by decide : (1 : Nat) < 10 ^ 9) (by decide : 6 ≤ 100)

theorem first_returned : ∃ entries after,
    recordAction acmeOptions acmeAccess (recordOf (requestedAction firstName)) (fun _ => some 0) none =
      .ok (entries, after) ∧
    ((entries = entriesForAction after acme firstName ∧ ∀ clock,
        recordAction acmeOptions acmeAccess (recordOf (requestedAction firstName)) clock (some after) =
          .ok (entries, after)) ↔
      Undisturbed emptyState acme (recordOf (requestedAction firstName)) fun _ => some 0) := by
  obtain ⟨entries, after, hRecord, _⟩ := requested_recorded firstName
  exact ⟨entries, after, hRecord, recorded_as_returned_iff acmeOptions [] none .start acmeAccess _ _ acme
    (acme_authorized .append) entries after hRecord⟩

end GhostApi.Ledger
