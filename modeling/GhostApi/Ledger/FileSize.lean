import GhostApi.Js.JsonSize
import GhostApi.Ledger.Calls
import GhostApi.Storage.RecordSize
import Mathlib.Data.List.Perm.Basic

/-!
# The size of the ledger file

The text of a ledger takes as many bytes as that of any other ledger with the
same tenants and, tenant by tenant, the same entries.
-/

namespace GhostApi.Ledger

open Js Json Validation Effect Actions Storage

/-! ## Hashes -/

theorem hexChars_plain : ∀ c ∈ Sha256.hexChars, escape c = [c] ∧ c.utf8Size = 1 := by
  have hAll : (Sha256.hexChars.all fun c => decide (escape c = [c] ∧ c.utf8Size = 1)) = true := by decide
  exact fun c hc => of_decide_eq_true (List.all_eq_true.mp hAll c hc)

theorem hash_size (hash : Hash) : (quote hash.val).utf8ByteSize = 66 := by
  have hHash := hash.property
  rw [isHash, Bool.and_eq_true, beq_iff_eq, List.all_eq_true] at hHash
  rw [quote_size_plain fun c hc => hexChars_plain c (List.contains_iff_mem.mp (hHash.2 c hc)), hHash.1]

theorem hash_sameSize (depth : Nat) (hash hash' : Hash) : SameSize depth (.string hash.val) (.string hash'.val) := by
  rw [SameSize, pretty, pretty, hash_size, hash_size]

theorem identifierChar_plain {c : Char} (h : isIdentifierChar c = true) : escape c = [c] ∧ c.utf8Size = 1 := by
  have hNot : ∀ d, isIdentifierChar d = false → (c == d) = false := by
    intro d hd
    rw [beq_eq_false_iff_ne]
    rintro rfl
    rw [h] at hd
    cases hd
  constructor
  · rw [escape, hNot '"' (by decide), hNot '\\' (by decide), hNot '\x08' (by decide), hNot '\x0c' (by decide),
      hNot '\n' (by decide), hNot '\r' (by decide), hNot '\t' (by decide), isControl_eq_false h]
    rfl
  · simp only [isIdentifierChar, isIdentifierStart, isLower, isDigit, Bool.or_eq_true, Bool.and_eq_true,
      decide_eq_true_eq, beq_iff_eq] at h
    rw [Char.utf8Size_eq_one_iff]
    rcases h with (((⟨_, hHigh⟩ | ⟨_, hHigh⟩) | rfl) | rfl) | rfl
    · exact UInt32.le_trans hHigh (by decide : 'z'.val ≤ 127)
    · exact UInt32.le_trans hHigh (by decide : '9'.val ≤ 127)
    all_goals decide

theorem identifier_size (id : Identifier) : (quote id.val).utf8ByteSize ≤ 130 := by
  obtain ⟨hChars, _, hLength⟩ := identifier_chars id.property
  rw [quote_size_plain fun c hc => identifierChar_plain (hChars c hc)]
  omega

theorem perm_of_filter_eq {α κ : Type} [DecidableEq α] [DecidableEq κ] {f : α → κ} {xs ys : List α}
    (h : ∀ k, xs.filter (f · = k) = ys.filter (f · = k)) : xs.Perm ys := by
  rw [List.perm_iff_count]
  intro x
  have hCount : ∀ zs : List α, zs.count x = (zs.filter (f · = f x)).count x := fun zs =>
    (List.count_filter (by simp)).symm
  rw [hCount xs, hCount ys, h]

/-! ## Entries -/

def LedgerEntry.place (entry : LedgerEntry) : EntryCore × { n : Nat // 1 ≤ n } := (entry.core, entry.sequence)

theorem entry_sameSize {depth : Nat} {entry entry' : LedgerEntry} (h : entry.place = entry'.place) :
    SameSize depth entry.toJson entry'.toJson := by
  obtain ⟨⟨tenantId, sequence, timestamp, actionId, actionHash, stage, data, previousHash⟩, entryHash⟩ := entry
  obtain ⟨⟨_, _, _, _, _, _, _, previousHash'⟩, entryHash'⟩ := entry'
  cases h
  refine object_sameSize ?_
  simp only [EntryBase.members, List.cons_append, List.nil_append, List.forall₂_cons, List.forall₂_nil_right_iff,
    true_and, and_true]
  exact ⟨rfl, rfl, rfl, rfl, rfl, rfl, rfl, rfl, rfl, hash_sameSize _ _ _, hash_sameSize _ _ _⟩

def placed (place : EntryCore × { n : Nat // 1 ≤ n }) : LedgerEntry :=
  EntryBase.seal {
    tenantId := place.1.tenantId
    sequence := place.2
    timestamp := place.1.timestamp
    actionId := place.1.actionId
    actionHash := place.1.actionHash
    stage := place.1.stage
    data := place.1.data
    previousHash := genesisHash place.1.tenantId }

theorem place_placed (entry : LedgerEntry) : (placed entry.place).place = entry.place := rfl

theorem sizes_entries (depth : Nat) (entries : List LedgerEntry) : sizes depth (entries.map LedgerEntry.toJson) =
    ((entries.map LedgerEntry.place).map fun place => (pretty depth (placed place).toJson).utf8ByteSize).sum := by
  rw [sizes, List.map_map, List.map_map]
  exact congrArg List.sum (List.map_congr_left fun entry _ => entry_sameSize (place_placed entry).symm)

theorem numbers_of {state : ActionLedgerState} (h : Valid state) (tenantId : Identifier) :
    (entriesOf tenantId state.entries).map (·.sequence.val) =
      List.range' 1 (history tenantId state.entries).length := by
  rw [history, List.length_map]
  by_cases hStored : tenantId ∈ state.tenants.map (·.tenantId)
  · obtain ⟨tenant, hTenant, rfl⟩ := List.mem_map.mp hStored
    exact (h.chained tenant hTenant).linked.2
  · have hNone : entriesOf tenantId state.entries = [] :=
      entriesOf_eq_nil fun entry hEntry hId => hStored (hId ▸ h.tracked entry hEntry)
    rw [hNone]
    rfl

theorem number_le {state : ActionLedgerState} (h : Valid state) {entry : LedgerEntry} (hEntry : entry ∈ state.entries) :
    entry.sequence.val ≤ MAX_ENTRIES := by
  have hOwn : entry ∈ entriesOf entry.tenantId state.entries := mem_entriesOf.mpr ⟨hEntry, rfl⟩
  have hNumber : entry.sequence.val ∈ (entriesOf entry.tenantId state.entries).map (·.sequence.val) :=
    List.mem_map_of_mem hOwn
  rw [numbers_of h, history, List.length_map, List.mem_range'_1] at hNumber
  have hLength : (entriesOf entry.tenantId state.entries).length ≤ state.entries.length := List.length_filter_le _ _
  have hAll := h.entriesLength
  omega

theorem places_perm {state state' : ActionLedgerState} (h : Valid state) (h' : Valid state')
    (hSame : ∀ tenantId, history tenantId state.entries = history tenantId state'.entries) :
    (state.entries.map LedgerEntry.place).Perm (state'.entries.map LedgerEntry.place) := by
  refine perm_of_filter_eq (f := fun place : EntryCore × { n : Nat // 1 ≤ n } => place.1.tenantId) fun tenantId => ?_
  have hFilter : ∀ entries : List LedgerEntry,
      (entries.map LedgerEntry.place).filter (fun place => decide (place.1.tenantId = tenantId)) =
        ((entriesOf tenantId entries).map LedgerEntry.core).zip ((entriesOf tenantId entries).map (·.sequence)) := by
    intro entries
    rw [List.filter_map, List.zip_map']
    rfl
  have hNumbers : (entriesOf tenantId state.entries).map (·.sequence) =
      (entriesOf tenantId state'.entries).map (·.sequence) := by
    refine List.map_injective_iff.mpr Subtype.val_injective ?_
    rw [List.map_map, List.map_map]
    exact (numbers_of h tenantId).trans ((hSame tenantId).symm ▸ (numbers_of h' tenantId).symm)
  have hCores : (entriesOf tenantId state.entries).map LedgerEntry.core =
      (entriesOf tenantId state'.entries).map LedgerEntry.core := hSame tenantId
  rw [hFilter, hFilter, hNumbers, hCores]

/-! ## Tenants -/

def LedgerTenantState.described (tenant : LedgerTenantState) : (Identifier × Settings) × Option Timestamp :=
  (tenant.profile, tenant.deletionRequestedAt)

theorem tenant_sameSize {depth : Nat} {tenant tenant' : LedgerTenantState} (h : tenant.described = tenant'.described)
    (hCount : tenant.entryCount = tenant'.entryCount) : SameSize depth tenant.toJson tenant'.toJson := by
  obtain ⟨tenantId, entryCount, headHash, retentionDays, legalHold, deletionRequestedAt⟩ := tenant
  obtain ⟨_, _, headHash', _, _, _⟩ := tenant'
  cases h
  cases hCount
  refine object_sameSize (List.rel_append ?_ ?_)
  · simp only [List.forall₂_cons, List.forall₂_nil_right_iff, true_and, and_true]
    exact ⟨rfl, rfl, hash_sameSize _ _ _, rfl, rfl⟩
  · exact List.forall₂_same.mpr fun _ _ => ⟨rfl, rfl⟩

def tenantOf (summary : ((Identifier × Settings) × Option Timestamp) × Nat) : LedgerTenantState where
  tenantId := summary.1.1.1
  entryCount := summary.2
  headHash := genesisHash summary.1.1.1
  retentionDays := summary.1.1.2.retentionDays
  legalHold := summary.1.1.2.legalHold
  deletionRequestedAt := summary.1.2

theorem sizes_tenants (depth : Nat) (tenants : List LedgerTenantState) :
    sizes depth (tenants.map LedgerTenantState.toJson) =
      ((tenants.map fun tenant => (tenant.described, tenant.entryCount)).map fun summary =>
        (pretty depth (tenantOf summary).toJson).utf8ByteSize).sum := by
  rw [sizes, List.map_map, List.map_map]
  refine congrArg List.sum (List.map_congr_left fun tenant _ => ?_)
  have hSame : SameSize depth tenant.toJson (tenantOf (tenant.described, tenant.entryCount)).toJson :=
    tenant_sameSize rfl rfl
  exact hSame

theorem summaries_eq {state : ActionLedgerState} (h : Valid state) :
    (state.tenants.map fun tenant => (tenant.described, tenant.entryCount)) =
      (state.tenants.map LedgerTenantState.described).map fun described =>
        (described, (history described.1.1 state.entries).length) := by
  rw [List.map_map]
  refine List.map_congr_left fun tenant hTenant => ?_
  have hCount : tenant.entryCount = (history tenant.tenantId state.entries).length := by
    rw [history, List.length_map, (h.chained tenant hTenant).count]
  rw [hCount]
  rfl

theorem bytes_congr {state state' : ActionLedgerState} (h : Valid state) (h' : Valid state')
    (hSame : ∀ tenantId, history tenantId state.entries = history tenantId state'.entries)
    (hTenants : state.tenants.map LedgerTenantState.described = state'.tenants.map LedgerTenantState.described) :
    format.bytes state = format.bytes state' := by
  have hPlaces := places_perm h h' hSame
  have hEntries : SameSize 1 (.array (state.entries.map LedgerEntry.toJson))
      (.array (state'.entries.map LedgerEntry.toJson)) := by
    refine array_sameSize (by simpa using hPlaces.length_eq) ?_
    rw [sizes_entries, sizes_entries]
    exact (hPlaces.map _).sum_nat
  have hAll : SameSize 1 (.array (state.tenants.map LedgerTenantState.toJson))
      (.array (state'.tenants.map LedgerTenantState.toJson)) := by
    refine array_sameSize (by simpa using congrArg List.length hTenants) ?_
    rw [sizes_tenants, sizes_tenants, summaries_eq h, summaries_eq h', hTenants]
    simp only [hSame]
  have hJson : SameSize 0 state.toJson state'.toJson := by
    refine object_sameSize ?_
    simp only [List.forall₂_cons, List.forall₂_nil_right_iff, true_and, and_true]
    exact ⟨rfl, rfl, hEntries, hAll⟩
  rw [SameSize] at hJson
  rw [StoreFormat.bytes, StoreFormat.bytes, fileText, fileText, String.utf8ByteSize_append, String.utf8ByteSize_append]
  exact congrArg (· + _) hJson

/-! ## Bounds -/

/-- The sizes of the texts that do not depend on an entry. -/
theorem constant_sizes :
    ((quote "schemaVersion").utf8ByteSize = 15 ∧ (quote "kind").utf8ByteSize = 6 ∧ (quote "tenantId").utf8ByteSize = 10 ∧
      (quote "sequence").utf8ByteSize = 10 ∧ (quote "timestamp").utf8ByteSize = 11 ∧
      (quote "actionId").utf8ByteSize = 10 ∧ (quote "actionHash").utf8ByteSize = 12 ∧
      (quote "stage").utf8ByteSize = 7 ∧ (quote "data").utf8ByteSize = 6 ∧ (quote "previousHash").utf8ByteSize = 14 ∧
      (quote "entryHash").utf8ByteSize = 11 ∧ (quote "ghostapi.action-ledger-entry").utf8ByteSize = 30) ∧
    ((quote "entryCount").utf8ByteSize = 12 ∧ (quote "headHash").utf8ByteSize = 10 ∧
      (quote "retentionDays").utf8ByteSize = 15 ∧ (quote "legalHold").utf8ByteSize = 11 ∧
      (quote "deletionRequestedAt").utf8ByteSize = 21 ∧
      (quote "entries").utf8ByteSize = 9 ∧ (quote "tenants").utf8ByteSize = 9 ∧
      (quote "ghostapi.action-ledger").utf8ByteSize = 24 ∧ (pretty 1 (.number 1)).utf8ByteSize = 1) ∧
    (∀ stage ∈ LedgerStage.all, (quote stage.text).utf8ByteSize ≤ 20) ∧
    (∀ word ∈ ledgerWords, (quote word).utf8ByteSize ≤ 130) ∧
    (pretty 3 (.number 1)).utf8ByteSize = 1 ∧ (pretty 3 .null).utf8ByteSize = 4 := by
  decide +kernel

theorem stage_size (stage : LedgerStage) : (quote stage.text).utf8ByteSize ≤ 20 :=
  constant_sizes.2.2.1 stage (by cases stage <;> decide)

theorem timestamp_size (time : Timestamp) : (quote time.val).utf8ByteSize ≤ 194 := by
  have hTime := @timestamp_within 0 _ time.property
  rwa [Within, pretty] at hTime

theorem sequence_size {n : Nat} (h : n ≤ MAX_ENTRIES) (depth : Nat) : (pretty depth (.number n)).utf8ByteSize ≤ 16 :=
  number_size (e := 4) (by decide) (lt_of_le_of_lt h (by decide)) depth

theorem entry_size {entry : LedgerEntry} (hNumber : entry.sequence.val ≤ MAX_ENTRIES) :
    (pretty 2 entry.toJson).utf8ByteSize ≤ 960 + (pretty 3 entry.data.toJson).utf8ByteSize := by
  obtain ⟨h1, h2, h3, h4, h5, h6, h7, h8, h9, h10, h11, h12⟩ := constant_sizes.1
  have hSequence := sequence_size hNumber 3
  have hVersion := constant_sizes.2.2.2.2.1
  have hTenant := identifier_size entry.tenantId
  have hAction := identifier_size entry.actionId
  have hStage := stage_size entry.stage
  have hTime := timestamp_size entry.timestamp
  have hHash := hash_size entry.actionHash
  have hPrevious := hash_size entry.previousHash
  have hEntry := hash_size entry.entryHash
  have hText : ∀ s, pretty 3 (.string s) = quote s := fun s => by rw [pretty]
  have hNone : lineSizes 2 [] = 0 := rfl
  have hObject := object_size 2 (entry.members ++ [("entryHash", .string entry.entryHash.val)])
  rw [LedgerEntry.toJson]
  generalize pretty 2 (.object (entry.members ++ [("entryHash", .string entry.entryHash.val)])) = text at hObject ⊢
  simp only [EntryBase.members, List.cons_append, List.nil_append, lineSizes_cons, hText, hNone, Nat.reduceAdd] at hObject
  omega

theorem exists_retention_member (tenant : LedgerTenantState) : ∃ days, (pretty 3 days).utf8ByteSize ≤ 16 ∧
    tenant.toJson = .object ([("tenantId", .string tenant.tenantId.val), ("entryCount", .number tenant.entryCount),
      ("headHash", .string tenant.headHash.val), ("retentionDays", days), ("legalHold", .bool tenant.legalHold)] ++
      Json.optional "deletionRequestedAt" (tenant.deletionRequestedAt.map fun time => .string time.val)) := by
  cases hDays : tenant.retentionDays with
  | none => exact ⟨.null, constant_sizes.2.2.2.2.2.trans_le (by decide), by rw [LedgerTenantState.toJson, hDays]⟩
  | some days =>
    exact ⟨.number days.val, number_size (e := 4) (by decide) (lt_of_le_of_lt days.property.2 (by decide)) 3,
      by rw [LedgerTenantState.toJson, hDays]⟩

theorem tenant_size {tenant : LedgerTenantState} (h : tenant.entryCount ≤ MAX_ENTRIES) :
    (pretty 2 tenant.toJson).utf8ByteSize ≤ 600 := by
  obtain ⟨h1, h2, h3, h4, h5, _⟩ := constant_sizes.2.1
  obtain ⟨_, _, hTenantId, _⟩ := constant_sizes.1
  have hCount := sequence_size h 3
  have hId := identifier_size tenant.tenantId
  have hHash := hash_size tenant.headHash
  have hText : ∀ s, pretty 3 (.string s) = quote s := fun s => by rw [pretty]
  have hNone : lineSizes 2 [] = 0 := rfl
  obtain ⟨days, hDays, hJson⟩ := exists_retention_member tenant
  have hHold : (pretty 3 (.bool tenant.legalHold)).utf8ByteSize ≤ 5 := bool_within tenant.legalHold
  have hObject := object_size 2 ([("tenantId", .string tenant.tenantId.val), ("entryCount", .number tenant.entryCount),
    ("headHash", .string tenant.headHash.val), ("retentionDays", days), ("legalHold", .bool tenant.legalHold)] ++
    Json.optional "deletionRequestedAt" (tenant.deletionRequestedAt.map fun time => .string time.val))
  rw [hJson]
  generalize pretty 2 (.object _) = text at hObject ⊢
  cases hRequested : tenant.deletionRequestedAt with
  | none =>
    simp only [hRequested, Option.map_none, Json.optional, List.append_nil, lineSizes_cons, hText, hNone, Nat.reduceAdd] at hObject
    omega
  | some time =>
    have hTime := timestamp_size time
    simp only [hRequested, Option.map_some, Json.optional, List.cons_append, List.nil_append, lineSizes_cons, hText, hNone,
      Nat.reduceAdd] at hObject
    omega

theorem bytes_le {state : ActionLedgerState} (h : Valid state) {bound : Nat}
    (hEntries : ∀ entry ∈ state.entries, (pretty 2 entry.toJson).utf8ByteSize ≤ bound) :
    format.bytes state ≤ 200 + state.entries.length * (bound + 6) + state.tenants.length * 606 := by
  obtain ⟨_, _, _, _, _, h5, h6, h7, h8⟩ := constant_sizes.2.1
  obtain ⟨hVersion, hKind, _⟩ := constant_sizes.1
  have hEntriesSize : sizes 2 (state.entries.map LedgerEntry.toJson) ≤ (state.entries.map LedgerEntry.toJson).length * bound := by
    refine sizes_le fun value hValue => ?_
    obtain ⟨entry, hEntry, rfl⟩ := List.mem_map.mp hValue
    exact hEntries entry hEntry
  have hTenantsSize : sizes 2 (state.tenants.map LedgerTenantState.toJson) ≤
      (state.tenants.map LedgerTenantState.toJson).length * 600 := by
    refine sizes_le fun value hValue => ?_
    obtain ⟨tenant, hTenant, rfl⟩ := List.mem_map.mp hValue
    refine tenant_size ?_
    rw [← (h.chained tenant hTenant).count]
    exact (List.length_filter_le _ _).trans h.entriesLength
  have hEntriesArray := array_size 1 (state.entries.map LedgerEntry.toJson)
  have hTenantsArray := array_size 1 (state.tenants.map LedgerTenantState.toJson)
  have hObject := object_size 0 [("schemaVersion", .number 1), ("kind", .string "ghostapi.action-ledger"),
    ("entries", .array (state.entries.map LedgerEntry.toJson)),
    ("tenants", .array (state.tenants.map LedgerTenantState.toJson))]
  have hText : ∀ s, pretty 1 (.string s) = quote s := fun s => by rw [pretty]
  have hNone : lineSizes 0 [] = 0 := rfl
  have hLine : "\n".utf8ByteSize = 1 := by decide
  rw [List.length_map] at hEntriesArray hTenantsArray hEntriesSize hTenantsSize
  simp only [Nat.reduceAdd, Nat.reduceMul] at hEntriesArray hTenantsArray
  simp only [lineSizes_cons, hText, hNone, Nat.zero_add] at hObject
  have hFile : format.bytes state = (pretty 0 (.object [("schemaVersion", .number 1),
      ("kind", .string "ghostapi.action-ledger"), ("entries", .array (state.entries.map LedgerEntry.toJson)),
      ("tenants", .array (state.tenants.map LedgerTenantState.toJson))])).utf8ByteSize + 1 := by
    rw [StoreFormat.bytes, fileText, String.utf8ByteSize_append, hLine]
    rfl
  rw [hFile, Nat.mul_add]
  omega

/-! ## Evidence -/

/-- A value that is printed in at most 130 bytes. -/
def Brief : JsValue → Prop
  | .string s => (quote s).utf8ByteSize ≤ 130
  | .number (.integer z) => 0 ≤ z ∧ z < 10 ^ 9
  | .number _ => False
  | _ => True

theorem normalizeScalar_ok {key : String} {value : JsValue} {scalar : LedgerScalar}
    (h : normalizeScalar key value = .ok scalar) : scalar.toValue = value := by
  cases value with
  | string s =>
    obtain ⟨text, hText, h⟩ := bind_eq_ok h
    cases h
    rw [safeString] at hText
    split at hText
    · cases hText
      rfl
    · cases hText
  | number n =>
    cases n with
    | integer z =>
      cases h
      rfl
    | fraction text =>
      rw [normalizeScalar] at h
      split at h
      · cases h
        rfl
      · cases h
    | nonFinite => cases h
  | bool b =>
    cases h
    rfl
  | null =>
    cases h
    rfl
  | _ => cases h

theorem normalizeFields_ok {fields : List (String × JsValue)} {scalars : List (String × LedgerScalar)}
    (h : normalizeFields fields = .ok scalars) : scalars.map (fun field => (field.1, field.2.toValue)) = fields := by
  induction fields generalizing scalars with
  | nil =>
    cases h
    rfl
  | cons field rest ih =>
    obtain ⟨key, value⟩ := field
    rw [normalizeFields] at h
    obtain ⟨_, _, h⟩ := bind_eq_ok h
    obtain ⟨scalar, hScalar, h⟩ := bind_eq_ok h
    obtain ⟨others, hRest, h⟩ := bind_eq_ok h
    cases h
    rw [List.map_cons, ih hRest]
    dsimp only
    rw [normalizeScalar_ok hScalar]

theorem normalizeData_ok {fields : List (String × JsValue)} {data : LedgerData}
    (h : normalizeData (.object fields) = .ok data) : data.toValue = .object fields := by
  obtain ⟨entries, hEntries, h⟩ := bind_eq_ok h
  cases hEntries
  obtain ⟨_, _, h⟩ := bind_eq_ok h
  obtain ⟨scalars, hScalars, h⟩ := bind_eq_ok h
  split at h
  · cases h
    exact congrArg JsValue.object (normalizeFields_ok hScalars)
  · cases h

theorem alnum_plain {c : Char} (h : isAlnum c = true) : isControl c = false := by
  simp only [isAlnum, isLower, isUpper, isDigit, Bool.or_eq_true, Bool.and_eq_true, decide_eq_true_eq, Char.le_def,
    UInt32.le_iff_toNat_le] at h
  rw [isControl, decide_eq_false_iff_not, UInt32.lt_iff_toNat_lt]
  have h0 : '0'.val.toNat = 48 := by decide
  have hLower : 'a'.val.toNat = 97 := by decide
  have hUpper : 'A'.val.toNat = 65 := by decide
  have hBound : (0x20 : UInt32).toNat = 32 := by decide
  omega

theorem fieldName_size {key : String} (h : acceptsName key = true) : (quote key).utf8ByteSize ≤ 514 := by
  rw [acceptsName, Bool.and_eq_true, isFieldName] at h
  have hName := h.1
  have hQuote : (∀ c ∈ key.toList, isControl c = false) ∧ key.toList.length ≤ 64 := by
    cases hKey : key.toList with
    | nil => simp
    | cons c cs =>
      rw [hKey] at hName
      simp only [Bool.and_eq_true, List.all_eq_true, decide_eq_true_eq] at hName
      obtain ⟨⟨hFirst, hRest⟩, hLength⟩ := hName
      have hLower : isAlnum c = true := by simp [isAlnum, hFirst]
      refine ⟨List.forall_mem_cons.mpr ⟨alnum_plain hLower, fun d hd => alnum_plain (hRest d hd)⟩, ?_⟩
      rw [List.length_cons]
      omega
  have hSize := quote_size hQuote.1
  omega

theorem brief_size {scalar : LedgerScalar} (h : Brief scalar.toValue) (depth : Nat) :
    (pretty depth scalar.toJson).utf8ByteSize ≤ 130 := by
  cases scalar with
  | string s =>
    rw [LedgerScalar.toJson, pretty]
    exact h
  | integer z =>
    obtain ⟨n, rfl⟩ := Int.eq_ofNat_of_zero_le h.1
    exact (number_size (e := 9) (by decide) (by exact_mod_cast h.2) depth).trans (by decide)
  | fraction text => exact h.elim
  | bool b => exact (bool_within b).trans (by decide)
  | null => exact constant_sizes.2.2.2.2.2.trans_le (by decide)

theorem data_size {data : LedgerData} (h : ∀ field ∈ data.fields, Brief field.2.toValue) :
    (pretty 3 data.toJson).utf8ByteSize ≤ 11000 := by
  have hObject := object_size 3 (data.fields.map fun field => (field.1, field.2.toJson))
  have hLines := @lineSizes_le 3 514 (data.fields.map fun field => (field.1, field.2.toJson)) fun name hName => by
    rw [List.map_map] at hName
    obtain ⟨field, hField, rfl⟩ := List.mem_map.mp hName
    exact fieldName_size (data.named field hField)
  have hValues := @sizes_le 4 130 ((data.fields.map fun field => (field.1, field.2.toJson)).map Prod.snd) fun value hValue => by
    rw [List.map_map] at hValue
    obtain ⟨field, hField, rfl⟩ := List.mem_map.mp hValue
    exact brief_size (h field hField) 4
  have hLength := data.bounded
  rw [List.length_map] at hLines
  rw [List.length_map, List.length_map] at hValues
  rw [LedgerData.toJson]
  simp only [Nat.reduceAdd] at hLines
  omega

def Evidence.Brief (evidence : Evidence) : Prop :=
  ∃ fields, evidence.data = .ok (.object fields) ∧ ∀ field ∈ fields, Ledger.Brief field.2

theorem brief_identifier (id : Identifier) : Brief (.string id.val) := identifier_size id

theorem brief_hash (hash : Hash) : Brief (.string hash.val) := (Nat.le_of_eq (hash_size hash)).trans (by decide)

theorem receiptEvidence_brief (receipt : ActionExecutionReceipt) :
    ∀ evidence ∈ receiptEvidence receipt, evidence.Brief := by
  rw [receiptEvidence]
  split
  · exact fun _ h => (List.not_mem_nil h).elim
  · refine List.forall_mem_singleton.mpr ⟨_, rfl, ?_⟩
    simp only [List.forall_mem_cons]
    exact ⟨⟨by decide, by decide⟩, constant_sizes.2.2.2.1 _ (by decide), brief_hash _, fun _ h => (List.not_mem_nil h).elim⟩
  · refine List.forall_mem_singleton.mpr ⟨_, rfl, ?_⟩
    simp only [List.forall_mem_cons]
    refine ⟨constant_sizes.2.2.2.1 _ (by decide), brief_hash _, ?_, fun _ h => (List.not_mem_nil h).elim⟩
    cases receipt.providerRequestId with
    | none => trivial
    | some id => exact brief_hash _
  · refine List.forall_mem_singleton.mpr ⟨_, rfl, ?_⟩
    simp only [List.forall_mem_cons]
    exact ⟨constant_sizes.2.2.2.1 _ (by decide), brief_hash _, brief_hash _, fun _ h => (List.not_mem_nil h).elim⟩
  · have hStatus : (if receipt.failure = some .unknownOutcome then "ambiguous" else "failed") ∈ ledgerWords := by
      split <;> decide
    simp only [List.forall_mem_cons]
    refine ⟨⟨_, rfl, ?_⟩, ⟨_, rfl, ?_⟩, fun _ h => (List.not_mem_nil h).elim⟩
    · simp only [List.forall_mem_cons]
      exact ⟨⟨by decide, by decide⟩, constant_sizes.2.2.2.1 _ hStatus, brief_hash _, fun _ h => (List.not_mem_nil h).elim⟩
    · simp only [List.forall_mem_cons]
      exact ⟨constant_sizes.2.2.2.1 _ hStatus, brief_hash _, trivial, fun _ h => (List.not_mem_nil h).elim⟩

theorem evidence_brief {record : ActionLedgerRecord} (hGrant : record.credentialGrant = none)
    (hVersion : record.envelope.policy.version.val < 10 ^ 9) : ∀ evidence ∈ record.evidence, evidence.Brief := by
  intro evidence hEvidence
  rw [ActionLedgerRecord.evidence, hGrant, List.mem_append, List.mem_append] at hEvidence
  rcases hEvidence with (hHead | hReceipt) | hLast
  · have hRisk : record.envelope.riskClass.text ∈ ledgerWords := by cases record.envelope.riskClass <;> decide
    have hReversible : record.envelope.reversibility.text ∈ ledgerWords := by
      cases record.envelope.reversibility <;> decide
    have hType : record.envelope.actor.type.text ∈ ledgerWords := by cases record.envelope.actor.type <;> decide
    have hNone : ∀ field ∈ ([] : List (String × JsValue)), Ledger.Brief field.2 := fun _ h => (List.not_mem_nil h).elim
    revert evidence
    simp only [List.forall_mem_cons]
    refine ⟨⟨_, rfl, ?_⟩, ⟨_, rfl, ?_⟩, ⟨_, rfl, ?_⟩, ⟨_, rfl, ?_⟩, ⟨_, rfl, ?_⟩, fun _ h => (List.not_mem_nil h).elim⟩
    · simp only [List.forall_mem_cons]
      exact ⟨brief_identifier _, constant_sizes.2.2.2.1 _ (by decide), brief_hash _, brief_hash _, brief_hash _,
        constant_sizes.2.2.2.1 _ hRisk, constant_sizes.2.2.2.1 _ hReversible, hNone⟩
    · simp only [List.forall_mem_cons]
      exact ⟨brief_identifier _, brief_identifier _, constant_sizes.2.2.2.1 _ hType, hNone⟩
    · simp only [List.forall_mem_cons]
      exact ⟨⟨Int.natCast_nonneg _, by exact_mod_cast hVersion⟩, brief_hash _, trivial, constant_sizes.2.2.2.1 _ (by decide), hNone⟩
    · simp only [List.forall_mem_cons]
      exact ⟨brief_hash _, brief_identifier _, constant_sizes.2.2.2.1 _ (by decide), constant_sizes.2.2.2.1 _ (by decide), hNone⟩
    · simp only [List.forall_mem_cons]
      exact ⟨constant_sizes.2.2.2.1 _ (by decide), hNone⟩
  · obtain ⟨receipt, _, hReceipt⟩ := List.mem_flatMap.mp hReceipt
    exact receiptEvidence_brief receipt evidence hReceipt
  · obtain rfl := List.mem_singleton.mp hLast
    refine ⟨_, rfl, List.forall_mem_singleton.mpr ?_⟩
    cases record.envelope.reversibility <;> exact constant_sizes.2.2.2.1 _ (by decide)

theorem entered_size {tenantId actionId : Identifier} {actionDigest : Hash} {evidence : Evidence} {entry : LedgerEntry}
    (hBrief : evidence.Brief) (h : Entered tenantId actionId actionDigest evidence entry) :
    (pretty 3 entry.data.toJson).utf8ByteSize ≤ 11000 := by
  obtain ⟨fields, hFields, hAll⟩ := hBrief
  have hData := h.data
  rw [hFields, ok_bind] at hData
  have hSame : entry.data.fields.map (fun field => (field.1, field.2.toValue)) = fields :=
    JsValue.object.inj (normalizeData_ok hData)
  refine data_size fun field hField => ?_
  exact hAll (field.1, field.2.toValue) (hSame ▸ List.mem_map_of_mem hField)

theorem short_bytes {state : ActionLedgerState} (h : Valid state) (hLength : state.entries.length ≤ 100)
    (hData : ∀ entry ∈ state.entries, (pretty 3 entry.data.toJson).utf8ByteSize ≤ 11000) :
    format.bytes state ≤ format.maxBytes := by
  have hBytes := @bytes_le state h 11960 fun entry hEntry => by
    have hSize := entry_size (number_le h hEntry)
    have hContent := hData entry hEntry
    omega
  have hTenants := h.tenantsLength
  rw [MAX_TENANTS] at hTenants
  change format.bytes state ≤ MAX_LEDGER_BYTES
  rw [MAX_LEDGER_BYTES]
  omega

end GhostApi.Ledger
