import GhostApi.Ledger.Rotation

/-!
# The chains of the ledger

Every operation leaves the hash chain of each tenant in order. The entries of
a tenant change by its own appends and by the rotations that appends cause.
-/

namespace GhostApi.Ledger

open Js Validation Effect Effect.Mutation Actions Storage

/-! ## Rotation and new tenants -/

theorem rotateForRetention_rotated {state : ActionLedgerState} (h : Valid state) (now : Int) :
    RotatedAll now state.entries state.tenants (rotateForRetention now state) :=
  rotateTenants_rotated h.tenantsUnique h.chained h.sealed

theorem rotateForRetention_valid {state : ActionLedgerState} (h : Valid state) (now : Int) :
    Valid (rotateForRetention now state) := by
  have hRotated := rotateForRetention_rotated h now
  have hIds := ids_congr hRotated.profiles
  refine ⟨hRotated.length.trans h.entriesLength, ?_, hRotated.sealed, hIds ▸ h.tenantsUnique, hRotated.chained, ?_⟩
  · rw [← List.length_map (·.tenantId), hIds, List.length_map]
    exact h.tenantsLength
  · intro entry hEntry
    rw [hIds]
    exact (hRotated.tracked entry hEntry).elim id (h.tracked entry)

theorem Valid.empty : Valid emptyState :=
  ⟨Nat.zero_le _, Nat.zero_le _, fun _ h => (List.not_mem_nil h).elim, List.nodup_nil, fun _ h => (List.not_mem_nil h).elim,
    fun _ h => (List.not_mem_nil h).elim⟩

theorem Valid.create {state : ActionLedgerState} (h : Valid state) {tenantId : Identifier}
    (hAbsent : tenantId ∉ state.tenants.map (·.tenantId)) (hRoom : state.tenants.length < MAX_TENANTS) :
    Valid { state with tenants := state.tenants ++ [freshTenant tenantId] } where
  entriesLength := h.entriesLength
  tenantsLength := by
    rw [List.length_append]
    exact hRoom
  sealed := h.sealed
  tenantsUnique := by
    rw [List.map_append, List.nodup_append]
    refine ⟨h.tenantsUnique, List.nodup_singleton _, fun id hId other hOther => ?_⟩
    rw [List.mem_singleton.mp hOther]
    rintro rfl
    exact hAbsent hId
  chained tenant hTenant := by
    rcases List.mem_append.mp hTenant with hTenant | hTenant
    · exact h.chained tenant hTenant
    · have hNone : entriesOf tenantId state.entries = [] := entriesOf_eq_nil fun entry hEntry hId =>
        hAbsent (hId ▸ h.tracked entry hEntry)
      rw [List.mem_singleton.mp hTenant]
      change Chained (entriesOf tenantId state.entries) _
      rw [hNone]
      exact ⟨rfl, ⟨trivial, rfl⟩, rfl⟩
  tracked entry hEntry := by
    rw [List.map_append, List.mem_append]
    exact .inl (h.tracked entry hEntry)

theorem settingsOf_create {tenantId : Identifier} {tenants : List LedgerTenantState} (other : Identifier) :
    settingsOf other (tenants ++ [freshTenant tenantId]) = settingsOf other tenants := by
  rw [settingsOf, settingsOf, List.find?_append]
  cases hFind : tenants.find? (·.tenantId = other) with
  | some tenant => rfl
  | none =>
    by_cases hId : tenantId = other
    · simp [freshTenant, hId, LedgerTenantState.settings]
    · simp [freshTenant, hId]

structure Created (tenantId : Identifier) (before after : ActionLedgerState) (tenant : LedgerTenantState) : Prop where
  valid : Valid after
  entries : after.entries = before.entries
  found : tenant ∈ after.tenants ∧ tenant.tenantId = tenantId
  settings : ∀ other, settingsOf other after.tenants = settingsOf other before.tenants

theorem getOrCreateTenant_found {state : ActionLedgerState} {tenantId : Identifier} {tenant : LedgerTenantState}
    (h : state.tenants.find? (·.tenantId = tenantId) = some tenant) :
    getOrCreateTenant tenantId state = (.ok tenant, state) := by
  rw [getOrCreateTenant, get_bind, h]
  rfl

theorem getOrCreateTenant_absent {state : ActionLedgerState} {tenantId : Identifier}
    (h : state.tenants.find? (·.tenantId = tenantId) = none) (hRoom : state.tenants.length < MAX_TENANTS) :
    getOrCreateTenant tenantId state =
      (.ok (freshTenant tenantId), { state with tenants := state.tenants ++ [freshTenant tenantId] }) := by
  rw [getOrCreateTenant, get_bind, h]
  dsimp only
  rw [get_bind, bind_of_ok (throwIf_of_not (Nat.not_le.mpr hRoom) _ state)]
  rfl

theorem find_none_iff {tenants : List LedgerTenantState} {tenantId : Identifier} :
    tenants.find? (·.tenantId = tenantId) = none ↔ tenantId ∉ tenants.map (·.tenantId) := by
  simp

theorem getOrCreateTenant_cases {state state' : ActionLedgerState} {tenantId : Identifier} {tenant : LedgerTenantState}
    (h : getOrCreateTenant tenantId state = (.ok tenant, state')) :
    state.tenants.find? (·.tenantId = tenantId) = some tenant ∧ state' = state ∨
      state.tenants.find? (·.tenantId = tenantId) = none ∧ state.tenants.length < MAX_TENANTS ∧
        tenant = freshTenant tenantId ∧ state' = { state with tenants := state.tenants ++ [freshTenant tenantId] } := by
  cases hFind : state.tenants.find? (·.tenantId = tenantId) with
  | some found =>
    rw [getOrCreateTenant_found hFind] at h
    cases h
    exact .inl ⟨rfl, rfl⟩
  | none =>
    by_cases hRoom : state.tenants.length < MAX_TENANTS
    · rw [getOrCreateTenant_absent hFind hRoom] at h
      cases h
      exact .inr ⟨rfl, hRoom, rfl, rfl⟩
    · rw [getOrCreateTenant, get_bind, hFind] at h
      dsimp only at h
      rw [get_bind] at h
      obtain ⟨_, _, hLimit, _⟩ := bind_ok h
      exact absurd (Nat.not_lt.mp hRoom) (throwIf_ok hLimit).1

theorem getOrCreateTenant_ok {state state' : ActionLedgerState} {tenantId : Identifier} {tenant : LedgerTenantState}
    (h : Valid state) (hRun : getOrCreateTenant tenantId state = (.ok tenant, state')) :
    Created tenantId state state' tenant := by
  rcases getOrCreateTenant_cases hRun with ⟨hFind, rfl⟩ | ⟨hFind, hRoom, rfl, rfl⟩
  · refine ⟨h, rfl, ⟨List.mem_of_find?_eq_some hFind, ?_⟩, fun _ => rfl⟩
    simpa using List.find?_some hFind
  · refine ⟨h.create (find_none_iff.mp hFind) hRoom, rfl, ?_, settingsOf_create⟩
    simp [freshTenant]

theorem getOrCreateTenant_created {state : ActionLedgerState} (h : Valid state) {tenantId : Identifier}
    (hRoom : tenantId ∈ state.tenants.map (·.tenantId) ∨ state.tenants.length < MAX_TENANTS) :
    ∃ tenant state', getOrCreateTenant tenantId state = (.ok tenant, state') ∧ Created tenantId state state' tenant := by
  cases hFind : state.tenants.find? (·.tenantId = tenantId) with
  | some tenant => exact ⟨_, _, getOrCreateTenant_found hFind, getOrCreateTenant_ok h (getOrCreateTenant_found hFind)⟩
  | none =>
    have hRun := getOrCreateTenant_absent hFind (hRoom.resolve_left (find_none_iff.mp hFind))
    exact ⟨_, _, hRun, getOrCreateTenant_ok h hRun⟩

/-! ## Assignments to a tenant -/

section Update

variable {state : ActionLedgerState} {tenantId : Identifier} {f : LedgerTenantState → LedgerTenantState}

def assign (tenantId : Identifier) (f : LedgerTenantState → LedgerTenantState) (tenants : List LedgerTenantState) :
    List LedgerTenantState :=
  tenants.map fun tenant => if tenant.tenantId = tenantId then f tenant else tenant

theorem assign_ids (hf : ∀ tenant, (f tenant).tenantId = tenant.tenantId) (tenants : List LedgerTenantState) :
    (assign tenantId f tenants).map (·.tenantId) = tenants.map (·.tenantId) := by
  rw [assign, List.map_map]
  refine List.map_congr_left fun tenant _ => ?_
  rw [Function.comp_apply]
  split
  · exact hf tenant
  · rfl

theorem assign_settings_other (hf : ∀ tenant, (f tenant).tenantId = tenant.tenantId) {other : Identifier}
    (hOther : other ≠ tenantId) (tenants : List LedgerTenantState) :
    settingsOf other (assign tenantId f tenants) = settingsOf other tenants := by
  induction tenants with
  | nil => rfl
  | cons tenant rest ih =>
    rw [assign, List.map_cons, ← assign]
    by_cases hId : tenant.tenantId = tenantId
    · rw [if_pos hId, settingsOf_cons_other (by rw [hf, hId]; exact hOther), ih,
        settingsOf_cons_other (by rw [hId]; exact hOther)]
    · rw [if_neg hId]
      by_cases hSame : other = tenant.tenantId
      · rw [hSame, settingsOf_cons_self, settingsOf_cons_self]
      · rw [settingsOf_cons_other hSame, settingsOf_cons_other hSame, ih]

theorem assign_settings (hf : ∀ tenant, (f tenant).profile = tenant.profile) (tenants : List LedgerTenantState)
    (other : Identifier) : settingsOf other (assign tenantId f tenants) = settingsOf other tenants := by
  refine settingsOf_congr ?_ other
  rw [assign, List.map_map]
  refine List.map_congr_left fun tenant _ => ?_
  rw [Function.comp_apply]
  split
  · exact hf tenant
  · rfl

theorem Valid.assign (h : Valid state) (hf : ∀ tenant, (f tenant).tenantId = tenant.tenantId ∧
      (f tenant).entryCount = tenant.entryCount ∧ (f tenant).headHash = tenant.headHash) :
    Valid { state with tenants := assign tenantId f state.tenants } where
  entriesLength := h.entriesLength
  tenantsLength := by simpa [Ledger.assign] using h.tenantsLength
  sealed := h.sealed
  tenantsUnique := (assign_ids (fun tenant => (hf tenant).1) state.tenants).symm ▸ h.tenantsUnique
  chained tenant hTenant := by
    obtain ⟨before, hBefore, rfl⟩ := List.mem_map.mp hTenant
    split
    · obtain ⟨hId, hCount, hHead⟩ := hf before
      obtain ⟨hOld, hLinked, hLatest⟩ := h.chained before hBefore
      rw [hId]
      exact ⟨hCount ▸ hOld, hId ▸ hLinked, by rw [hHead, hId]; exact hLatest⟩
    · exact h.chained before hBefore
  tracked entry hEntry := by
    rw [assign_ids fun tenant => (hf tenant).1]
    exact h.tracked entry hEntry

def extended (entry : LedgerEntry) (tenant : LedgerTenantState) : LedgerTenantState :=
  { tenant with entryCount := entry.sequence.val, headHash := entry.entryHash }

theorem Valid.append (h : Valid state) (hRoom : state.entries.length < MAX_ENTRIES) {entry : LedgerEntry}
    {tenant : LedgerTenantState} (hTenant : tenant ∈ state.tenants) (hId : entry.tenantId = tenant.tenantId)
    (hSealed : entry.Sealed) (hNumber : entry.sequence.val = tenant.entryCount + 1)
    (hPrevious : entry.previousHash =
      entryChain.latest (genesisHash tenant.tenantId) (entriesOf tenant.tenantId state.entries)) :
    Valid {
      entries := state.entries ++ [entry]
      tenants := Ledger.assign tenant.tenantId (extended entry) state.tenants } where
  entriesLength := by
    rw [List.length_append]
    exact hRoom
  tenantsLength := by simpa [Ledger.assign] using h.tenantsLength
  sealed other hOther := by
    rcases List.mem_append.mp hOther with hOther | hOther
    · exact h.sealed other hOther
    · exact List.mem_singleton.mp hOther ▸ hSealed
  tenantsUnique := (assign_ids (f := extended entry) (fun _ => rfl) state.tenants).symm ▸ h.tenantsUnique
  chained after hAfter := by
    obtain ⟨before, hBefore, rfl⟩ := List.mem_map.mp hAfter
    split
    · rename_i hSame
      have hBeforeEq : before = tenant := by
        have hFirst := find_tenant h.tenantsUnique hBefore hSame
        rw [find_tenant h.tenantsUnique hTenant rfl] at hFirst
        exact (Option.some.inj hFirst).symm
      subst hBeforeEq
      obtain ⟨hCount, hLinked, hLatest⟩ := h.chained before hBefore
      change Chained (entriesOf before.tenantId (state.entries ++ [entry])) (extended entry before)
      rw [entriesOf_append, entriesOf_eq_self (List.forall_mem_singleton.mpr hId)]
      refine ⟨?_, ?_, ?_⟩
      · rw [List.length_append, hCount]
        exact hNumber.symm
      · refine NumberedChain.linked_append.mpr ⟨hLinked, ?_, hPrevious⟩
        rw [hCount, Nat.add_comm]
        exact hNumber
      · simp [HashChain.latest, entryChain, extended]
    · rename_i hOther
      have hNone : entriesOf before.tenantId [entry] = [] := entriesOf_eq_nil (by simpa [hId] using Ne.symm hOther)
      rw [entriesOf_append, hNone, List.append_nil]
      exact h.chained before hBefore
  tracked other hOther := by
    rw [assign_ids (f := extended entry) fun _ => rfl]
    rcases List.mem_append.mp hOther with hOther | hOther
    · exact h.tracked other hOther
    · rw [List.mem_singleton.mp hOther, hId]
      exact List.mem_map_of_mem hTenant

end Update

end GhostApi.Ledger
