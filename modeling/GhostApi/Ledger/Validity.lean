import GhostApi.Ledger.System

/-!
# Accepted ledger states

What validateState accepts, as a predicate on the state that it returns.
-/

namespace GhostApi.Ledger

open Js Validation Effect Actions Storage

def LedgerEntry.Sealed (entry : LedgerEntry) : Prop := entry.entryHash = entry.toEntryBase.seal.entryHash

/-- The entries of a tenant are its hash chain, and the tenant counts and ends it. -/
structure Chained (own : List LedgerEntry) (tenant : LedgerTenantState) : Prop where
  count : own.length = tenant.entryCount
  linked : entryChain.Linked (genesisHash tenant.tenantId) 1 own
  head : tenant.headHash = entryChain.latest (genesisHash tenant.tenantId) own

structure Accepted (state : ActionLedgerState) : Prop where
  entriesLength : state.entries.length ≤ MAX_ENTRIES
  tenantsLength : state.tenants.length ≤ MAX_TENANTS
  sealed : ∀ entry ∈ state.entries, entry.Sealed
  tenantsUnique : (state.tenants.map (·.tenantId)).Nodup
  chained : ∀ tenant ∈ state.tenants, Chained (entriesOf tenant.tenantId state.entries) tenant
  covered : (state.entries.map (·.tenantId)).dedup.length = state.tenants.length ∨
    ∀ entry ∈ state.entries, ∃ tenant ∈ state.tenants, tenant.tenantId = entry.tenantId

/-! ## Verification -/

theorem verifyEntries_eq_ok {previousHash last : Hash} {index : Nat} {entries : List LedgerEntry} :
    verifyEntries previousHash index entries = .ok last ↔ entryChain.Linked previousHash (index + 1) entries ∧
      (∀ entry ∈ entries, entry.Sealed) ∧ last = entryChain.latest previousHash entries := by
  induction entries generalizing previousHash index with
  | nil => simp [verifyEntries, NumberedChain.Linked, HashChain.Linked, HashChain.latest, eq_comm]
  | cons entry rest ih =>
    rw [verifyEntries, HashChain.latest_cons, List.forall_mem_cons]
    split
    · rename_i hBroken
      simp only [NumberedChain.Linked, HashChain.Linked, List.map_cons, List.length_cons, List.range'_succ,
        List.cons.injEq, reduceCtorEq, false_iff]
      rintro ⟨⟨⟨hPrevious, _⟩, hSequence, _⟩, _⟩
      exact hBroken.elim (fun h => h hSequence) fun h => h hPrevious
    · rename_i hLink
      split
      · rename_i hHash
        simp only [reduceCtorEq, false_iff]
        rintro ⟨_, ⟨hSealed, _⟩, _⟩
        exact hHash hSealed
      · rename_i hHash
        rw [ih]
        simp only [not_or, not_not] at hLink hHash
        simp only [NumberedChain.Linked, HashChain.Linked, List.map_cons, List.length_cons, List.range'_succ,
          List.cons.injEq]
        constructor
        · rintro ⟨⟨hLinked, hNumbers⟩, hSealed, hLast⟩
          exact ⟨⟨⟨hLink.2, hLinked⟩, hLink.1, hNumbers⟩, ⟨hHash, hSealed⟩, hLast⟩
        · rintro ⟨⟨⟨_, hLinked⟩, _, hNumbers⟩, ⟨_, hSealed⟩, hLast⟩
          exact ⟨⟨hLinked, hNumbers⟩, hSealed, hLast⟩

theorem find_tenant {tenants : List LedgerTenantState} {tenant : LedgerTenantState} {tenantId : Identifier}
    (hUnique : (tenants.map (·.tenantId)).Nodup) (hMem : tenant ∈ tenants) (hId : tenant.tenantId = tenantId) :
    tenants.find? (·.tenantId = tenantId) = some tenant := by
  induction tenants with
  | nil => cases hMem
  | cons first rest ih =>
    rw [List.map_cons, List.nodup_cons] at hUnique
    rcases List.mem_cons.mp hMem with rfl | hRest
    · exact List.find?_cons_of_pos (by simpa using hId)
    · rw [List.find?_cons_of_neg]
      · exact ih hUnique.2 hRest
      · intro hFirst
        have hSame : first.tenantId = tenant.tenantId := (of_decide_eq_true hFirst).trans hId.symm
        exact hUnique.1 (hSame ▸ List.mem_map_of_mem hRest)

theorem verifyTenantState_eq_valid {state : ActionLedgerState} {tenant : LedgerTenantState}
    (hUnique : (state.tenants.map (·.tenantId)).Nodup) (hMem : tenant ∈ state.tenants) (hChained : Chained (entriesOf tenant.tenantId state.entries) tenant)
    (hSealed : ∀ entry ∈ entriesOf tenant.tenantId state.entries, entry.Sealed) :
    verifyTenantState state tenant.tenantId =
      .valid (entriesOf tenant.tenantId state.entries).length tenant.headHash true := by
  have hVerified : verifyEntries (genesisHash tenant.tenantId) 0 (entriesOf tenant.tenantId state.entries) = .ok tenant.headHash :=
    verifyEntries_eq_ok.mpr ⟨hChained.linked, hSealed, hChained.head⟩
  rw [verifyTenantState, find_tenant hUnique hMem rfl]
  dsimp only
  rw [if_neg (not_not.mpr hChained.count), hVerified]
  exact if_neg (not_not.mpr rfl)

theorem chained_of_valid {state : ActionLedgerState} {tenant : LedgerTenantState} {count : Nat} {head : Hash}
    {tracked : Bool} (hUnique : (state.tenants.map (·.tenantId)).Nodup) (hMem : tenant ∈ state.tenants)
    (h : verifyTenantState state tenant.tenantId = .valid count head tracked) :
    Chained (entriesOf tenant.tenantId state.entries) tenant ∧ ∀ entry ∈ entriesOf tenant.tenantId state.entries, entry.Sealed := by
  rw [verifyTenantState, find_tenant hUnique hMem rfl] at h
  dsimp only at h
  split at h
  · cases h
  · rename_i hCount
    split at h
    · cases h
    · rename_i last hVerified
      split at h
      · cases h
      · rename_i hHead
        obtain ⟨hLinked, hSealed, hLast⟩ := verifyEntries_eq_ok.mp hVerified
        exact ⟨⟨not_not.mp hCount, hLinked, (not_not.mp hHead).trans hLast⟩, hSealed⟩

theorem assertTenantIntegrity_eq_ok {state : ActionLedgerState} {tenant : LedgerTenantState}
    (hUnique : (state.tenants.map (·.tenantId)).Nodup) (hMem : tenant ∈ state.tenants) :
    assertTenantIntegrity state tenant.tenantId = .ok () ↔
      Chained (entriesOf tenant.tenantId state.entries) tenant ∧ ∀ entry ∈ entriesOf tenant.tenantId state.entries, entry.Sealed := by
  rw [assertTenantIntegrity]
  constructor
  · intro h
    split at h
    · rename_i hValid
      exact chained_of_valid hUnique hMem hValid
    · cases h
  · rintro ⟨hChained, hSealed⟩
    rw [verifyTenantState_eq_valid hUnique hMem hChained hSealed]

/-! ## Validation -/

theorem validateEntry_ok {value : JsValue} {entry : LedgerEntry} (h : validateEntry value = .ok entry) :
    entry.Sealed := by
  obtain ⟨fields, _, h⟩ := bind_eq_ok h
  obtain ⟨_, _, h⟩ := bind_eq_ok h
  obtain ⟨_, _, h⟩ := bind_eq_ok h
  obtain ⟨stage, _, h⟩ := bind_eq_ok h
  obtain ⟨tenantId, _, h⟩ := bind_eq_ok h
  obtain ⟨sequence, _, h⟩ := bind_eq_ok h
  obtain ⟨time, _, h⟩ := bind_eq_ok h
  obtain ⟨actionId, _, h⟩ := bind_eq_ok h
  obtain ⟨digest, _, h⟩ := bind_eq_ok h
  obtain ⟨data, _, h⟩ := bind_eq_ok h
  obtain ⟨previousHash, _, h⟩ := bind_eq_ok h
  obtain ⟨entryHash, _, h⟩ := bind_eq_ok h
  obtain ⟨_, hHash, h⟩ := bind_eq_ok h
  cases h
  have hSealed := failIf_eq_ok.mp hHash
  exact not_not.mp hSealed

theorem mapM_toValue {α : Type} {validate : JsValue → Except JsError α} {toValue : α → JsValue} {items items' : List α}
    (hSame : ∀ item item', validate (toValue item) = .ok item' → item = item')
    (h : (items.map toValue).mapM validate = .ok items') : items = items' := by
  have hAll := mapM_eq_ok h
  rw [List.forall₂_map_left_iff] at hAll
  exact List.forall₂_eq_eq_eq ▸ hAll.imp hSame

theorem mapM_of_forall {α : Type} {validate : JsValue → Except JsError α} {toValue : α → JsValue} {items : List α}
    (h : ∀ item ∈ items, validate (toValue item) = .ok item) : (items.map toValue).mapM validate = .ok items := by
  induction items with
  | nil => rfl
  | cons item rest ih =>
    rw [List.forall_mem_cons] at h
    rw [List.map_cons, List.mapM_cons, h.1, ih h.2]
    rfl

theorem checkCovered_iff {entries : List LedgerEntry} {tenants : List LedgerTenantState} :
    ¬((entries.map (·.tenantId)).dedup.length ≠ tenants.length ∧
        entries.any (fun entry => !tenants.any (·.tenantId = entry.tenantId)) = true) ↔
      (entries.map (·.tenantId)).dedup.length = tenants.length ∨
        ∀ entry ∈ entries, ∃ tenant ∈ tenants, tenant.tenantId = entry.tenantId := by
  rw [not_and_or, not_not]
  refine or_congr_right ?_
  simp

theorem mem_of_mapM {α : Type} {validate : JsValue → Except JsError α} {values : List JsValue} {items : List α}
    (h : values.mapM validate = .ok items) : ∀ item ∈ items, ∃ value, validate value = .ok item := by
  intro item hItem
  obtain ⟨i, hi, rfl⟩ := List.getElem_of_mem hItem
  have hAll := mapM_eq_ok h
  have hPair := hAll.get (hAll.length_eq ▸ hi) hi
  exact ⟨_, hPair⟩

theorem boundedArray_ok {value : JsValue} {max : Nat} {items : List JsValue}
    (h : boundedArray value max = .ok items) : items.length ≤ max := by
  cases value with
  | array values =>
    obtain ⟨_, hLimit, h⟩ := bind_eq_ok h
    cases h
    exact Nat.not_lt.mp (failIf_eq_ok.mp hLimit)
  | _ => cases h

theorem boundedArray_eq {values items : List JsValue} {max : Nat} (h : boundedArray (.array values) max = .ok items) :
    items = values := by
  obtain ⟨_, _, h⟩ := bind_eq_ok h
  cases h
  rfl

theorem validateEntry_toValue_ok (entry entry' : LedgerEntry) (h : validateEntry entry.toValue = .ok entry') :
    entry = entry' := by
  rw [validateEntry_toValue] at h
  obtain ⟨_, _, h⟩ := bind_eq_ok h
  exact Except.ok.inj h

theorem validateState_ok {value : JsValue} {state : ActionLedgerState} (h : validateState value = .ok state) :
    Accepted state := by
  obtain ⟨fields, _, h⟩ := bind_eq_ok h
  obtain ⟨_, _, h⟩ := bind_eq_ok h
  obtain ⟨_, _, h⟩ := bind_eq_ok h
  obtain ⟨entryValues, hEntryLimit, h⟩ := bind_eq_ok h
  obtain ⟨tenantValues, hTenantLimit, h⟩ := bind_eq_ok h
  obtain ⟨entries, hEntries, h⟩ := bind_eq_ok h
  obtain ⟨tenants, hTenants, h⟩ := bind_eq_ok h
  obtain ⟨_, hUnique, h⟩ := bind_eq_ok h
  obtain ⟨_, hIntegrity, h⟩ := bind_eq_ok h
  obtain ⟨_, hCovered, h⟩ := bind_eq_ok h
  cases h
  have hDistinct := not_not.mp (failIf_eq_ok.mp hUnique)
  refine ⟨?_, ?_, ?_, hDistinct, ?_, checkCovered_iff.mp (failIf_eq_ok.mp hCovered)⟩
  · rw [← (mapM_eq_ok hEntries).length_eq]
    exact boundedArray_ok hEntryLimit
  · rw [← (mapM_eq_ok hTenants).length_eq]
    exact boundedArray_ok hTenantLimit
  · intro entry hEntry
    obtain ⟨value, hValue⟩ := mem_of_mapM hEntries entry hEntry
    exact validateEntry_ok hValue
  · intro tenant hTenant
    exact ((assertTenantIntegrity_eq_ok hDistinct hTenant).mp (forM_eq_ok.mp hIntegrity tenant hTenant)).1

theorem boundedArray_of {items : List JsValue} {max : Nat} (h : items.length ≤ max) :
    boundedArray (.array items) max = .ok items := by
  rw [boundedArray, failIf_of_not (Nat.not_lt.mpr h)]
  rfl

theorem validateState_toValue_eq (state : ActionLedgerState) : validateState state.toValue = (do
    let entryValues ← boundedArray (.array (state.entries.map LedgerEntry.toValue)) MAX_ENTRIES
    let tenantValues ← boundedArray (.array (state.tenants.map LedgerTenantState.toValue)) MAX_TENANTS
    let entries ← entryValues.mapM validateEntry
    let tenants ← tenantValues.mapM validateTenant
    failIf (¬(tenants.map (·.tenantId)).Nodup) (refuse "Action ledger tenant state is duplicated.")
    tenants.forM fun tenant => assertTenantIntegrity ⟨entries, tenants⟩ tenant.tenantId
    failIf ((entries.map (·.tenantId)).dedup.length ≠ tenants.length ∧
        entries.any (fun entry => !tenants.any (·.tenantId = entry.tenantId)) = true)
      (refuse "Action ledger entry has no tenant state.")
    return ⟨entries, tenants⟩) := rfl

theorem validateState_toValue {state : ActionLedgerState} (h : Accepted state) :
    validateState state.toValue = .ok state := by
  have hEntries : (state.entries.map LedgerEntry.toValue).mapM validateEntry = .ok state.entries :=
    mapM_of_forall fun entry hEntry => by
      have hSealed : ¬entry.entryHash ≠ entry.toEntryBase.seal.entryHash := not_not.mpr (h.sealed entry hEntry)
      rw [validateEntry_toValue, failIf_of_not hSealed]
      rfl
  have hTenants : (state.tenants.map LedgerTenantState.toValue).mapM validateTenant = .ok state.tenants :=
    mapM_of_forall fun tenant _ => validateTenant_toValue tenant
  have hIntegrity : (state.tenants.forM fun tenant => assertTenantIntegrity state tenant.tenantId) = .ok () := by
    refine forM_eq_ok.mpr fun tenant hTenant => ?_
    refine (assertTenantIntegrity_eq_ok h.tenantsUnique hTenant).mpr ⟨h.chained tenant hTenant, fun entry hEntry => ?_⟩
    exact h.sealed entry (List.mem_filter.mp hEntry).1
  rw [validateState_toValue_eq, boundedArray_of (by simpa using h.entriesLength), ok_bind,
    boundedArray_of (by simpa using h.tenantsLength), ok_bind, hEntries, ok_bind, hTenants, ok_bind,
    failIf_of_not (not_not.mpr h.tenantsUnique), ok_bind, hIntegrity, ok_bind,
    failIf_of_not (checkCovered_iff.mpr h.covered)]
  rfl

theorem format_accepts : format.Accepts Accepted := by
  intro state state'
  constructor
  · intro h
    have hAccepted := validateState_ok h
    change validateState state.toValue = .ok state' at h
    rw [validateState_toValue_eq] at h
    obtain ⟨entryValues, hEntryValues, h⟩ := bind_eq_ok h
    obtain ⟨tenantValues, hTenantValues, h⟩ := bind_eq_ok h
    obtain ⟨entries, hEntries, h⟩ := bind_eq_ok h
    obtain ⟨tenants, hTenants, h⟩ := bind_eq_ok h
    obtain ⟨_, _, h⟩ := bind_eq_ok h
    obtain ⟨_, _, h⟩ := bind_eq_ok h
    obtain ⟨_, _, h⟩ := bind_eq_ok h
    cases h
    rw [boundedArray_eq hEntryValues] at hEntries
    rw [boundedArray_eq hTenantValues] at hTenants
    have hSameEntries : state.entries = entries := mapM_toValue validateEntry_toValue_ok hEntries
    have hSameTenants : state.tenants = tenants := by
      refine mapM_toValue (fun tenant tenant' hSame => ?_) hTenants
      rw [validateTenant_toValue] at hSame
      exact Except.ok.inj hSame
    cases hSameEntries
    cases hSameTenants
    exact ⟨hAccepted, rfl⟩
  · rintro ⟨h, rfl⟩
    exact validateState_toValue h

end GhostApi.Ledger
