import GhostApi.Ledger.Validity

/-!
# Rotation of the ledger

What rotation leaves of the entries of each tenant. Sequence numbers and
hashes are assigned anew; the rest of an entry is its core.
-/

namespace GhostApi.Ledger

open Js Validation Effect Effect.Mutation Actions Storage

structure Settings where
  retentionDays : Option (Positive 3650)
  legalHold : Bool
  deriving DecidableEq

def LedgerTenantState.settings (tenant : LedgerTenantState) : Settings := ⟨tenant.retentionDays, tenant.legalHold⟩

def settingsOf (tenantId : Identifier) (tenants : List LedgerTenantState) : Settings :=
  ((tenants.find? (·.tenantId = tenantId)).map LedgerTenantState.settings).getD ⟨none, false⟩

/-- The tenant has a retention period and no hold, and the entry is older than the period. -/
def Settings.Expires (settings : Settings) (now : Int) (core : EntryCore) : Prop :=
  ∃ days ∈ settings.retentionDays, settings.legalHold = false ∧
    timeOf core.timestamp < now - days.val * millisecondsPerDay

instance (settings : Settings) (now : Int) (core : EntryCore) : Decidable (settings.Expires now core) :=
  inferInstanceAs (Decidable (∃ days ∈ settings.retentionDays, _))

/-- The entries of a tenant as rotation leaves them alone. -/
def history (tenantId : Identifier) (entries : List LedgerEntry) : List EntryCore :=
  (entriesOf tenantId entries).map LedgerEntry.core

structure Valid (state : ActionLedgerState) : Prop where
  entriesLength : state.entries.length ≤ MAX_ENTRIES
  tenantsLength : state.tenants.length ≤ MAX_TENANTS
  sealed : ∀ entry ∈ state.entries, entry.Sealed
  tenantsUnique : (state.tenants.map (·.tenantId)).Nodup
  chained : ∀ tenant ∈ state.tenants, Chained (entriesOf tenant.tenantId state.entries) tenant
  tracked : ∀ entry ∈ state.entries, entry.tenantId ∈ state.tenants.map (·.tenantId)

theorem Valid.accepted {state : ActionLedgerState} (h : Valid state) : Accepted state where
  entriesLength := h.entriesLength
  tenantsLength := h.tenantsLength
  sealed := h.sealed
  tenantsUnique := h.tenantsUnique
  chained := h.chained
  covered := .inr fun entry hEntry => List.mem_map.mp (h.tracked entry hEntry)

/-! ## Relinking -/

section Relink

variable {tenantId : Identifier} {previousHash : Hash} {index : Nat} {entries : List LedgerEntry}

theorem relink_length : (relinkTenantChain tenantId previousHash index entries).length = entries.length := by
  induction entries generalizing previousHash index with
  | nil => rfl
  | cons entry rest ih => rw [relinkTenantChain, List.length_cons, List.length_cons, ih]

theorem relink_sealed :
    ∀ entry ∈ relinkTenantChain tenantId previousHash index entries, entry.Sealed ∧ entry.tenantId = tenantId := by
  induction entries generalizing previousHash index with
  | nil =>
    rw [relinkTenantChain]
    simp
  | cons entry rest ih =>
    rw [relinkTenantChain]
    exact List.forall_mem_cons.mpr ⟨⟨rfl, rfl⟩, ih⟩

theorem relink_linked :
    entryChain.Linked previousHash (index + 1) (relinkTenantChain tenantId previousHash index entries) := by
  induction entries generalizing previousHash index with
  | nil => exact ⟨trivial, rfl⟩
  | cons entry rest ih =>
    obtain ⟨hLinked, hNumbers⟩ := @ih (EntryBase.seal { entry.toEntryBase with
      tenantId, sequence := ⟨index + 1, Nat.le_add_left 1 index⟩, previousHash }).entryHash (index + 1)
    rw [relinkTenantChain]
    refine ⟨⟨rfl, hLinked⟩, ?_⟩
    rw [List.map_cons, hNumbers, List.length_cons, List.range'_succ]
    rfl

theorem relink_core (hOwn : ∀ entry ∈ entries, entry.tenantId = tenantId) :
    (relinkTenantChain tenantId previousHash index entries).map LedgerEntry.core = entries.map LedgerEntry.core := by
  induction entries generalizing previousHash index with
  | nil => rfl
  | cons entry rest ih =>
    rw [List.forall_mem_cons] at hOwn
    rw [relinkTenantChain, List.map_cons, List.map_cons, ih hOwn.2]
    refine congrArg (· :: _) ?_
    simp only [LedgerEntry.core, EntryBase.seal, hOwn.1]

end Relink

/-! ## The entries of one tenant -/

theorem entriesOf_append (tenantId : Identifier) (entries added : List LedgerEntry) :
    entriesOf tenantId (entries ++ added) = entriesOf tenantId entries ++ entriesOf tenantId added :=
  List.filter_append entries added

theorem entriesOf_eq_self {tenantId : Identifier} {entries : List LedgerEntry}
    (h : ∀ entry ∈ entries, entry.tenantId = tenantId) : entriesOf tenantId entries = entries :=
  List.filter_eq_self.mpr fun entry hEntry => decide_eq_true (h entry hEntry)

theorem entriesOf_eq_nil {tenantId : Identifier} {entries : List LedgerEntry}
    (h : ∀ entry ∈ entries, entry.tenantId ≠ tenantId) : entriesOf tenantId entries = [] :=
  List.filter_eq_nil_iff.mpr fun entry hEntry => by simpa using h entry hEntry

theorem mem_entriesOf {tenantId : Identifier} {entry : LedgerEntry} {entries : List LedgerEntry} :
    entry ∈ entriesOf tenantId entries ↔ entry ∈ entries ∧ entry.tenantId = tenantId := by
  simp [entriesOf]

theorem Chained.sorted {own : List LedgerEntry} {tenant : LedgerTenantState} (h : Chained own tenant) :
    own.mergeSort (fun left right => left.sequence.val ≤ right.sequence.val) = own := by
  apply List.mergeSort_of_pairwise
  have hNumbers : (own.map entryChain.sequence).Pairwise (· < ·) := by
    rw [h.linked.2]
    exact List.pairwise_lt_range'
  rw [List.pairwise_map] at hNumbers
  exact hNumbers.imp fun hLt => decide_eq_true (Nat.le_of_lt hLt)

/-! ## Rotation -/

def LedgerTenantState.profile (tenant : LedgerTenantState) : Identifier × Settings := (tenant.tenantId, tenant.settings)

theorem settingsOf_congr {tenants tenants' : List LedgerTenantState}
    (h : tenants'.map LedgerTenantState.profile = tenants.map LedgerTenantState.profile) (tenantId : Identifier) :
    settingsOf tenantId tenants' = settingsOf tenantId tenants := by
  have hFind : ∀ tenants : List LedgerTenantState, settingsOf tenantId tenants =
      (((tenants.map LedgerTenantState.profile).find? (·.1 = tenantId)).map Prod.snd).getD ⟨none, false⟩ := by
    intro tenants
    rw [List.find?_map, Option.map_map]
    rfl
  rw [hFind, hFind, h]

theorem ids_congr {tenants tenants' : List LedgerTenantState}
    (h : tenants'.map LedgerTenantState.profile = tenants.map LedgerTenantState.profile) :
    tenants'.map (·.tenantId) = tenants.map (·.tenantId) := by
  have hFirst := congrArg (List.map Prod.fst) h
  rwa [List.map_map, List.map_map] at hFirst

theorem not_expires_of_retain {settings : Settings} (h : settings.retentionDays = none ∨ settings.legalHold = true)
    (now : Int) (core : EntryCore) : ¬settings.Expires now core := by
  rintro ⟨days, hDays, hHold, _⟩
  rcases h with h | h
  · rw [h] at hDays
    cases hDays
  · rw [h] at hHold
    cases hHold

theorem expires_iff {settings : Settings} {days : Positive 3650} (hDays : settings.retentionDays = some days)
    (hHold : settings.legalHold = false) {now : Int} {core : EntryCore} :
    settings.Expires now core ↔ ¬now - days.val * millisecondsPerDay ≤ timeOf core.timestamp := by
  simp only [Settings.Expires, hDays, hHold, Option.mem_some, exists_eq_left', true_and]
  omega

/-- What one pass of rotation leaves when it is over with a tenant. -/
structure Rotated (now : Int) (entries : List LedgerEntry) (tenant : LedgerTenantState) (entries' : List LedgerEntry)
    (tenant' : LedgerTenantState) : Prop where
  profile : tenant'.profile = tenant.profile
  chained : Chained (entriesOf tenant.tenantId entries') tenant'
  kept : history tenant.tenantId entries' =
    (history tenant.tenantId entries).filter fun core => ¬tenant.settings.Expires now core
  others : ∀ tenantId ≠ tenant.tenantId, entriesOf tenantId entries' = entriesOf tenantId entries
  sealed : ∀ entry ∈ entries', entry.Sealed
  tracked : ∀ entry ∈ entries', entry.tenantId = tenant.tenantId ∨ entry ∈ entries
  length : entries'.length ≤ entries.length

section RotateTenant

variable {now : Int} {entries : List LedgerEntry} {tenant : LedgerTenantState}

theorem Rotated.rfl_of_keep (hChained : Chained (entriesOf tenant.tenantId entries) tenant)
    (hSealed : ∀ entry ∈ entries, entry.Sealed)
    (hKeep : ∀ entry ∈ entriesOf tenant.tenantId entries, ¬tenant.settings.Expires now entry.core) :
    Rotated now entries tenant entries tenant where
  profile := rfl
  chained := hChained
  kept := by
    refine (List.filter_eq_self.mpr fun core hCore => ?_).symm
    obtain ⟨entry, hEntry, rfl⟩ := List.mem_map.mp hCore
    exact decide_eq_true (hKeep entry hEntry)
  others _ _ := rfl
  sealed := hSealed
  tracked _ hEntry := .inr hEntry
  length := le_refl _

theorem Rotated.of_relink {surviving : List LedgerEntry} (hSealed : ∀ entry ∈ entries, entry.Sealed)
    (hSurviving : surviving = (entriesOf tenant.tenantId entries).filter fun entry =>
      ¬tenant.settings.Expires now entry.core) :
    let rebuilt := relinkTenantChain tenant.tenantId (genesisHash tenant.tenantId) 0 surviving
    Rotated now entries tenant (entries.filter (¬·.tenantId = tenant.tenantId) ++ rebuilt)
      { tenant with
        entryCount := rebuilt.length
        headHash := entryChain.latest (genesisHash tenant.tenantId) rebuilt } := by
  intro rebuilt
  have hRebuilt : ∀ entry ∈ rebuilt, entry.Sealed ∧ entry.tenantId = tenant.tenantId := relink_sealed
  have hOwn : ∀ entry ∈ surviving, entry.tenantId = tenant.tenantId := by
    intro entry hEntry
    rw [hSurviving] at hEntry
    exact (mem_entriesOf.mp (List.mem_filter.mp hEntry).1).2
  have hRest : ∀ entry ∈ entries.filter (¬·.tenantId = tenant.tenantId), entry ∈ entries ∧ entry.tenantId ≠ tenant.tenantId := by
    intro entry hEntry
    simpa using List.mem_filter.mp hEntry
  have hEntries : entriesOf tenant.tenantId (entries.filter (¬·.tenantId = tenant.tenantId) ++ rebuilt) = rebuilt := by
    rw [entriesOf_append, entriesOf_eq_nil fun entry hEntry => (hRest entry hEntry).2, List.nil_append,
      entriesOf_eq_self fun entry hEntry => (hRebuilt entry hEntry).2]
  refine ⟨rfl, ?_, ?_, ?_, ?_, ?_, ?_⟩
  · rw [hEntries]
    exact ⟨rfl, relink_linked, rfl⟩
  · rw [history, hEntries, relink_core hOwn, hSurviving, history, List.filter_map]
    rfl
  · intro tenantId hOther
    have hNone : entriesOf tenantId rebuilt = [] :=
      entriesOf_eq_nil fun entry hEntry => (hRebuilt entry hEntry).2 ▸ hOther.symm
    rw [entriesOf_append, hNone, List.append_nil, entriesOf, List.filter_filter]
    refine List.filter_congr fun entry _ => ?_
    by_cases hEntry : entry.tenantId = tenantId
    · simp [hEntry, hOther]
    · simp [hEntry]
  · intro entry hEntry
    rcases List.mem_append.mp hEntry with hEntry | hEntry
    · exact hSealed entry (hRest entry hEntry).1
    · exact (hRebuilt entry hEntry).1
  · intro entry hEntry
    rcases List.mem_append.mp hEntry with hEntry | hEntry
    · exact .inr (hRest entry hEntry).1
    · exact .inl (hRebuilt entry hEntry).2
  · have hCount : rebuilt.length ≤ (entriesOf tenant.tenantId entries).length := by
      rw [show rebuilt.length = surviving.length from relink_length, hSurviving]
      exact List.length_filter_le _ _
    have hSplit := List.length_eq_length_filter_add (l := entries) fun entry : LedgerEntry =>
      decide (entry.tenantId = tenant.tenantId)
    rw [List.length_append]
    simp only [entriesOf] at hCount
    simp only [decide_not]
    omega

theorem rotateTenant_rotated (hChained : Chained (entriesOf tenant.tenantId entries) tenant)
    (hSealed : ∀ entry ∈ entries, entry.Sealed) :
    Rotated now entries tenant (rotateTenant now entries tenant).1 (rotateTenant now entries tenant).2 := by
  rw [rotateTenant]
  split
  · rename_i hDays
    exact .rfl_of_keep hChained hSealed fun entry _ => not_expires_of_retain (.inl hDays) now entry.core
  · rename_i days hDays
    split
    · rename_i hHold
      exact .rfl_of_keep hChained hSealed fun entry _ => not_expires_of_retain (.inr hHold) now entry.core
    · rename_i hHold
      have hExpires : ∀ entry : LedgerEntry, (¬tenant.settings.Expires now entry.core) ↔
          now - days.val * millisecondsPerDay ≤ timeOf entry.timestamp := fun entry => by
        rw [expires_iff hDays (Bool.not_eq_true _ ▸ hHold), not_not]
        rfl
      have hSurviving : ((entriesOf tenant.tenantId entries).mergeSort fun left right =>
            left.sequence.val ≤ right.sequence.val).filter
            (fun entry => now - days.val * millisecondsPerDay ≤ timeOf entry.timestamp) =
          (entriesOf tenant.tenantId entries).filter fun entry => ¬tenant.settings.Expires now entry.core := by
        rw [hChained.sorted]
        exact List.filter_congr fun entry _ => decide_eq_decide.mpr (hExpires entry).symm
      dsimp only
      split
      · rename_i hAll
        rw [hSurviving, List.length_filter_eq_length_iff] at hAll
        exact .rfl_of_keep hChained hSealed fun entry hEntry => of_decide_eq_true (hAll entry hEntry)
      · exact .of_relink hSealed hSurviving

theorem rotateTenant_eq_self (hChained : Chained (entriesOf tenant.tenantId entries) tenant)
    (hKeep : ∀ entry ∈ entriesOf tenant.tenantId entries, ¬tenant.settings.Expires now entry.core) :
    rotateTenant now entries tenant = (entries, tenant) := by
  rw [rotateTenant]
  split
  · rfl
  · rename_i days hDays
    split
    · rfl
    · rename_i hHold
      have hAll : (entriesOf tenant.tenantId entries).filter
          (fun entry => now - days.val * millisecondsPerDay ≤ timeOf entry.timestamp) =
          entriesOf tenant.tenantId entries := by
        refine List.filter_eq_self.mpr fun entry hEntry => decide_eq_true ?_
        have hStays := hKeep entry hEntry
        rwa [expires_iff hDays (Bool.not_eq_true _ ▸ hHold), not_not] at hStays
      dsimp only
      rw [if_pos (by rw [hChained.sorted, hAll])]

end RotateTenant

theorem settingsOf_cons_self {tenant : LedgerTenantState} {rest : List LedgerTenantState} :
    settingsOf tenant.tenantId (tenant :: rest) = tenant.settings := by
  simp [settingsOf]

theorem settingsOf_cons_other {tenantId : Identifier} {tenant : LedgerTenantState} {rest : List LedgerTenantState}
    (h : tenantId ≠ tenant.tenantId) : settingsOf tenantId (tenant :: rest) = settingsOf tenantId rest := by
  simp [settingsOf, h.symm]

/-- What rotation leaves when it is over with a list of tenants. -/
structure RotatedAll (now : Int) (entries : List LedgerEntry) (tenants : List LedgerTenantState)
    (after : ActionLedgerState) : Prop where
  profiles : after.tenants.map LedgerTenantState.profile = tenants.map LedgerTenantState.profile
  chained : ∀ tenant ∈ after.tenants, Chained (entriesOf tenant.tenantId after.entries) tenant
  kept : ∀ tenantId, history tenantId after.entries =
    (history tenantId entries).filter fun core => ¬(settingsOf tenantId tenants).Expires now core
  others : ∀ tenantId ∉ tenants.map (·.tenantId), entriesOf tenantId after.entries = entriesOf tenantId entries
  sealed : ∀ entry ∈ after.entries, entry.Sealed
  tracked : ∀ entry ∈ after.entries, entry.tenantId ∈ tenants.map (·.tenantId) ∨ entry ∈ entries
  length : after.entries.length ≤ entries.length

/-- By induction on the tenants: the tenants to come keep their chains while one is rotated,
and the tenants done keep theirs while the others are. -/
theorem rotateTenants_rotated {now : Int} {entries : List LedgerEntry} {tenants : List LedgerTenantState}
    (hUnique : (tenants.map (·.tenantId)).Nodup)
    (hChained : ∀ tenant ∈ tenants, Chained (entriesOf tenant.tenantId entries) tenant)
    (hSealed : ∀ entry ∈ entries, entry.Sealed) :
    RotatedAll now entries tenants (rotateTenants now entries tenants) := by
  induction tenants generalizing entries with
  | nil =>
    refine ⟨rfl, fun _ h => (List.not_mem_nil h).elim, fun tenantId => ?_, fun _ _ => rfl, hSealed, fun _ h => .inr h,
      le_refl _⟩
    refine (List.filter_eq_self.mpr fun core _ => decide_eq_true ?_).symm
    exact not_expires_of_retain (.inl rfl) now core
  | cons tenant rest ih =>
    rw [List.map_cons, List.nodup_cons] at hUnique
    rw [List.forall_mem_cons] at hChained
    have hFirst : Rotated now entries tenant (rotateTenant now entries tenant).1 (rotateTenant now entries tenant).2 :=
      rotateTenant_rotated hChained.1 hSealed
    rw [rotateTenants]
    generalize rotateTenant now entries tenant = rotated at hFirst ⊢
    obtain ⟨entries', tenant'⟩ := rotated
    dsimp only at hFirst ⊢
    have hId : tenant'.tenantId = tenant.tenantId := congrArg Prod.fst hFirst.profile
    have hAway : ∀ other ∈ rest, other.tenantId ≠ tenant.tenantId := fun other hOther hSame =>
      hUnique.1 (hSame ▸ List.mem_map_of_mem hOther)
    have hRest : RotatedAll now entries' rest (rotateTenants now entries' rest) := ih hUnique.2
      (fun other hOther => (hFirst.others _ (hAway other hOther)) ▸ hChained.2 other hOther) hFirst.sealed
    refine ⟨?_, ?_, ?_, ?_, hRest.sealed, ?_, hRest.length.trans hFirst.length⟩
    · rw [List.map_cons, List.map_cons, hFirst.profile, hRest.profiles]
    · refine List.forall_mem_cons.mpr ⟨?_, hRest.chained⟩
      rw [hId, hRest.others tenant.tenantId hUnique.1]
      exact hFirst.chained
    · intro tenantId
      by_cases hOwn : tenantId = tenant.tenantId
      · subst hOwn
        rw [history, hRest.others tenant.tenantId hUnique.1, settingsOf_cons_self]
        exact hFirst.kept
      · rw [hRest.kept, history, hFirst.others tenantId hOwn, settingsOf_cons_other hOwn]
        rfl
    · intro tenantId hAbsent
      rw [List.map_cons, List.mem_cons, not_or] at hAbsent
      rw [hRest.others tenantId hAbsent.2, hFirst.others tenantId hAbsent.1]
    · intro entry hEntry
      rw [List.map_cons, List.mem_cons]
      rcases hRest.tracked entry hEntry with hRestId | hEntry
      · exact .inl (.inr hRestId)
      · exact (hFirst.tracked entry hEntry).imp_left .inl

theorem rotateTenants_own {now : Int} {tenantId : Identifier} {entries : List LedgerEntry}
    {tenants : List LedgerTenantState} (hUnique : (tenants.map (·.tenantId)).Nodup)
    (hChained : ∀ tenant ∈ tenants, Chained (entriesOf tenant.tenantId entries) tenant)
    (hSealed : ∀ entry ∈ entries, entry.Sealed)
    (hKeep : ∀ entry ∈ entriesOf tenantId entries, ¬(settingsOf tenantId tenants).Expires now entry.core) :
    entriesOf tenantId (rotateTenants now entries tenants).entries = entriesOf tenantId entries := by
  induction tenants generalizing entries with
  | nil => rfl
  | cons tenant rest ih =>
    rw [List.map_cons, List.nodup_cons] at hUnique
    rw [List.forall_mem_cons] at hChained
    have hFirst : Rotated now entries tenant (rotateTenant now entries tenant).1 (rotateTenant now entries tenant).2 :=
      rotateTenant_rotated hChained.1 hSealed
    have hAway : ∀ other ∈ rest, other.tenantId ≠ tenant.tenantId := fun other hOther hSame =>
      hUnique.1 (hSame ▸ List.mem_map_of_mem hOther)
    rw [rotateTenants]
    dsimp only
    by_cases hOwn : tenantId = tenant.tenantId
    · subst hOwn
      rw [settingsOf_cons_self] at hKeep
      rw [rotateTenant_eq_self hChained.1 hKeep]
      exact (rotateTenants_rotated hUnique.2 hChained.2 hSealed).others tenant.tenantId hUnique.1
    · rw [settingsOf_cons_other hOwn, ← hFirst.others tenantId hOwn] at hKeep
      rw [ih hUnique.2 (fun other hOther => (hFirst.others _ (hAway other hOther)) ▸ hChained.2 other hOther)
        hFirst.sealed hKeep, hFirst.others tenantId hOwn]

end GhostApi.Ledger
