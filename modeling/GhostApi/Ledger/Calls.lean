import GhostApi.Ledger.Recording

/-!
# What a call leaves to a tenant

The retention settings after a call, and the entries after a call for which
the ledger has room. Such a call rotates nothing.
-/

namespace GhostApi.Ledger

open Js Validation Effect Effect.Mutation Actions Storage

/-! ## Settings -/

/-- The settings of a tenant once a call has assigned to them. -/
def Call.settings (options : Options) (tenantId : Identifier) (settings : Settings) : Call → Settings
  | .configureRetention access retentionDays =>
    match authorize options access .manageRetention, validateRetention retentionDays with
    | .ok own, .ok retentionDays => if own = tenantId then { settings with retentionDays } else settings
    | _, _ => settings
  | .setLegalHold access active =>
    match authorize options access .manageHold, boolean refuse active "Legal hold state must be boolean." with
    | .ok own, .ok legalHold => if own = tenantId then { settings with legalHold } else settings
    | _, _ => settings
  | _ => settings

section Settings

variable {options : Options} {tenantId : Identifier} {clock : Clock} {state state' : ActionLedgerState}

theorem assign_settings_own {f : LedgerTenantState → LedgerTenantState} {g : Settings → Settings}
    (hf : ∀ tenant, (f tenant).tenantId = tenant.tenantId) (hg : ∀ tenant, (f tenant).settings = g tenant.settings)
    {tenants : List LedgerTenantState} (hStored : tenantId ∈ tenants.map (·.tenantId)) :
    settingsOf tenantId (assign tenantId f tenants) = g (settingsOf tenantId tenants) := by
  induction tenants with
  | nil => cases hStored
  | cons tenant rest ih =>
    rw [assign, List.map_cons, ← assign]
    by_cases hId : tenant.tenantId = tenantId
    · rw [if_pos hId, ← hId, settingsOf_cons_self, ← hf tenant, settingsOf_cons_self, hg]
    · have hRest : tenantId ∈ rest.map (·.tenantId) := by
        rcases List.mem_cons.mp hStored with hSame | hRest
        · exact absurd hSame.symm hId
        · exact hRest
      rw [if_neg hId, settingsOf_cons_other (Ne.symm hId), settingsOf_cons_other (Ne.symm hId), ih hRest]

theorem assign_then_append_settings {tenant : LedgerTenantState} {f : LedgerTenantState → LedgerTenantState}
    {g : Settings → Settings} {kind subject : String} {stage : LedgerStage} {data : JsValue}
    (hf : ∀ tenant, (f tenant).tenantId = tenant.tenantId ∧
      (f tenant).entryCount = tenant.entryCount ∧ (f tenant).headHash = tenant.headHash)
    (hg : ∀ tenant, (f tenant).settings = g tenant.settings) (h : Valid state)
    (hRun : (do
      let _ ← getOrCreateTenant tenantId
      updateTenant tenantId f
      let _ ← governanceEntry tenantId kind subject stage data clock
      getOrCreateTenant tenantId : Op LedgerTenantState) state = (.ok tenant, state')) :
    settingsOf tenantId state'.tenants = g (settingsOf tenantId state.tenants) := by
  obtain ⟨_, created, hCreate, hRun⟩ := bind_ok hRun
  have hCreated := getOrCreateTenant_ok h hCreate
  obtain ⟨_, mid, hAssign, hRun⟩ := bind_ok hRun
  have hMid : mid = { created with tenants := assign tenantId f created.tenants } := modify_ok hAssign
  obtain ⟨_, last, hEntry, hRun⟩ := bind_ok hRun
  have hValid : Valid mid := by
    rw [hMid]
    exact hCreated.valid.assign hf
  obtain ⟨append, _, _, _, hAdvances⟩ := governanceEntry_ok hValid hEntry
  have hStored : tenantId ∈ created.tenants.map (·.tenantId) := hCreated.found.2 ▸ List.mem_map_of_mem hCreated.found.1
  rw [(getOrCreateTenant_ok hAdvances.valid hRun).settings, hAdvances.settings, hMid,
    assign_settings_own (fun tenant => (hf tenant).1) hg hStored, hCreated.settings]

theorem operation_settings {call : Call} {operation : Operation} (h : Valid state)
    (hCall : call.operation options = .ok operation) (hRun : operation.run clock state = (.ok (), state')) :
    settingsOf operation.tenantId state'.tenants =
      call.settings options operation.tenantId (settingsOf operation.tenantId state.tenants) := by
  cases call with
  | recordAction access record =>
    obtain ⟨tenantId, _, hCall⟩ := bind_eq_ok hCall
    obtain ⟨normalized, _, hCall⟩ := bind_eq_ok hCall
    cases hCall
    obtain ⟨entries, hRun⟩ := discard_ok hRun
    rcases recordActionOp_ok h hRun with ⟨_, rfl⟩ | ⟨_, appends, _, _, hAdvances⟩
    · rfl
    · exact hAdvances.settings tenantId
  | configureRetention access retentionDays =>
    obtain ⟨tenantId, hAccess, hCall⟩ := bind_eq_ok hCall
    obtain ⟨days, hDays, hCall⟩ := bind_eq_ok hCall
    cases hCall
    obtain ⟨tenant, hRun⟩ := discard_ok hRun
    have hSettings := assign_then_append_settings (f := ({ · with retentionDays := days }))
      (g := ({ · with retentionDays := days })) (fun _ => ⟨rfl, rfl, rfl⟩) (fun _ => rfl) h hRun
    simp [Call.settings, hAccess, hDays, hSettings]
  | setLegalHold access active =>
    obtain ⟨tenantId, hAccess, hCall⟩ := bind_eq_ok hCall
    obtain ⟨held, hHeld, hCall⟩ := bind_eq_ok hCall
    cases hCall
    obtain ⟨tenant, hRun⟩ := discard_ok hRun
    have hSettings := assign_then_append_settings (f := ({ · with legalHold := held }))
      (g := ({ · with legalHold := held })) (fun _ => ⟨rfl, rfl, rfl⟩) (fun _ => rfl) h hRun
    simp [Call.settings, hAccess, hHeld, hSettings]
  | requestDeletion access =>
    obtain ⟨tenantId, _, hCall⟩ := bind_eq_ok hCall
    cases hCall
    obtain ⟨tenant, hRun⟩ := discard_ok hRun
    obtain ⟨appends, _, hAdvances, _⟩ := requestDeletionOp_ok h hRun
    exact hAdvances.settings tenantId

end Settings

/-! ## Room -/

/-- A computation that adds up to a number of entries at the end, if there is room for them. -/
def Grows {α : Type} (count : Nat) (op : Op α) : Prop :=
  ∀ state state' a, state.entries.length + count ≤ MAX_ENTRIES → op state = (.ok a, state') →
    ∃ entries, entries.length ≤ count ∧ state'.entries = state.entries ++ entries

section Grows

variable {α β : Type} {tenantId : Identifier} {count m : Nat}

theorem Grows.mono {op : Op α} (h : Grows count op) (hLe : count ≤ m) : Grows m op := by
  intro state state' a hRoom hRun
  obtain ⟨entries, hLength, hEntries⟩ := h state state' a (by omega) hRun
  exact ⟨entries, hLength.trans hLe, hEntries⟩

theorem Grows.bind {op : Op α} {f : α → Op β} (h : Grows count op) (hNext : ∀ a, Grows m (f a)) :
    Grows (count + m) (op >>= f) := by
  intro state state' b hRoom hRun
  obtain ⟨a, mid, hFirst, hRun⟩ := bind_ok hRun
  obtain ⟨first, hFirstLength, hMid⟩ := h state mid a (by omega) hFirst
  have hMidRoom : mid.entries.length + m ≤ MAX_ENTRIES := by
    rw [hMid, List.length_append]
    omega
  obtain ⟨second, hSecondLength, hAfter⟩ := hNext a mid state' b hMidRoom hRun
  refine ⟨first ++ second, ?_, by rw [hAfter, hMid, List.append_assoc]⟩
  rw [List.length_append]
  omega

theorem grows_of_same {op : Op α} (h : ∀ state state' a, op state = (.ok a, state') → state'.entries = state.entries) :
    Grows 0 op :=
  fun state state' a _ hRun => ⟨[], Nat.le_refl 0, by rw [h state state' a hRun, List.append_nil]⟩

theorem grows_pure (a : α) : Grows 0 (pure a : Op α) := grows_of_same fun _ _ _ hRun => by rw [(pure_ok hRun).2]

theorem grows_get : Grows 0 (get : Op ActionLedgerState) := grows_of_same fun _ _ _ hRun => by rw [(get_ok hRun).2]

theorem grows_lift (x : Except JsError α) : Grows 0 (liftM x : Op α) :=
  grows_of_same fun _ _ _ hRun => by rw [(lift_ok hRun).2]

theorem grows_throwIf {c : Prop} {_ : Decidable c} (e : JsError) : Grows 0 (throwIf c e : Op Unit) :=
  grows_of_same fun _ _ _ hRun => by rw [(throwIf_ok hRun).2]

theorem grows_updateTenant (f : LedgerTenantState → LedgerTenantState) : Grows 0 (updateTenant tenantId f) :=
  grows_of_same fun _ _ _ hRun => by rw [modify_ok hRun]

theorem grows_getOrCreateTenant : Grows 0 (getOrCreateTenant tenantId) :=
  grows_of_same fun _ _ _ hRun => by
    rcases getOrCreateTenant_cases hRun with ⟨_, rfl⟩ | ⟨_, _, _, rfl⟩
    · rfl
    · rfl

theorem grows_appendEntry (actionId : String) (actionDigest : Hash) (stage : LedgerStage) (data : JsValue) (now : Int) :
    Grows 1 (appendEntry tenantId actionId actionDigest stage data now) :=
  fun _ _ entry hRoom hRun => ⟨[entry], Nat.le_refl 1, appendEntry_stored hRoom hRun⟩

theorem grows_appendAll (actionId : Identifier) (actionDigest : Hash) (evidence : List Evidence) (clock : Clock) :
    Grows evidence.length (appendAll tenantId actionId actionDigest evidence clock) := by
  induction evidence generalizing clock with
  | nil => exact grows_pure []
  | cons item rest ih =>
    rw [appendAll]
    refine ((grows_lift _).bind fun data => (grows_lift _).bind fun now =>
      (grows_appendEntry _ _ _ data now).bind fun entry => (ih _).bind fun entries => grows_pure _).mono ?_
    rw [List.length_cons]
    omega

theorem grows_recordActionOp (record : ActionLedgerRecord) (clock : Clock) :
    Grows record.evidence.length (recordActionOp tenantId record clock) := by
  rw [recordActionOp]
  refine (grows_get.bind fun state => ?_).mono (Nat.le_of_eq (Nat.zero_add _))
  split
  · exact ((grows_throwIf _).bind fun _ => grows_pure _).mono (Nat.zero_le _)
  · exact grows_appendAll _ _ _ clock

theorem grows_governanceEntry (kind subject : String) (stage : LedgerStage) (data : JsValue) (clock : Clock) :
    Grows 1 (governanceEntry tenantId kind subject stage data clock) := by
  rw [governanceEntry]
  exact grows_get.bind fun state => (grows_lift _).bind fun now => grows_appendEntry _ _ _ _ now

theorem grows_assign_then_append (f : LedgerTenantState → LedgerTenantState) (kind subject : String)
    (stage : LedgerStage) (data : JsValue) (clock : Clock) :
    Grows 1 (do
      let _ ← getOrCreateTenant tenantId
      updateTenant tenantId f
      let _ ← governanceEntry tenantId kind subject stage data clock
      getOrCreateTenant tenantId) :=
  grows_getOrCreateTenant.bind fun _ => (grows_updateTenant f).bind fun _ =>
    (grows_governanceEntry kind subject stage data clock).bind fun _ => grows_getOrCreateTenant

theorem grows_requestDeletionOp (clock : Clock) : Grows 1 (requestDeletionOp tenantId clock) := by
  rw [requestDeletionOp]
  refine (grows_getOrCreateTenant.bind fun tenant => (grows_throwIf _).bind (m := 1) fun _ => ?_).mono (by decide)
  dsimp only
  split
  · exact (grows_governanceEntry _ _ _ _ clock).bind fun entry =>
      (grows_updateTenant _).bind fun _ => grows_getOrCreateTenant
  · exact grows_getOrCreateTenant.mono (Nat.zero_le 1)

end Grows

def Call.size : Call → Nat
  | .recordAction _ record => record.evidence.length
  | _ => 1

theorem operation_grows {options : Options} {call : Call} {operation : Operation} (clock : Clock)
    (hCall : call.operation options = .ok operation) : Grows call.size (operation.run clock) := by
  have hDiscard : ∀ {α : Type} {count : Nat} {op : Op α}, Grows count op → Grows count (do let _ ← op : Op Unit) :=
    fun h => h.bind fun _ => grows_pure ()
  cases call with
  | recordAction access record =>
    obtain ⟨tenantId, _, hCall⟩ := bind_eq_ok hCall
    obtain ⟨normalized, hRecord, hCall⟩ := bind_eq_ok hCall
    rw [normalizeActionRecord_ok hRecord] at hCall
    cases hCall
    exact hDiscard (grows_recordActionOp record clock)
  | configureRetention access retentionDays =>
    obtain ⟨tenantId, _, hCall⟩ := bind_eq_ok hCall
    obtain ⟨days, _, hCall⟩ := bind_eq_ok hCall
    cases hCall
    exact hDiscard (grows_assign_then_append _ _ _ _ _ clock)
  | setLegalHold access active =>
    obtain ⟨tenantId, _, hCall⟩ := bind_eq_ok hCall
    obtain ⟨held, _, hCall⟩ := bind_eq_ok hCall
    cases hCall
    exact hDiscard (grows_assign_then_append _ _ _ _ _ clock)
  | requestDeletion access =>
    obtain ⟨tenantId, _, hCall⟩ := bind_eq_ok hCall
    cases hCall
    exact hDiscard (grows_requestDeletionOp clock)

end GhostApi.Ledger
