import GhostApi.Ledger.Runs

/-!
# Tamper evidence of the ledger

The head of a tenant determines its entries, as far as the hash is injective on
the texts of these entries. The order of the members of structured data is not
part of an entry.
-/

namespace GhostApi.Ledger

open Js Validation Storage

structure LedgerEntry.Agrees (entry entry' : LedgerEntry) : Prop where
  tenantId : entry.tenantId = entry'.tenantId
  sequence : entry.sequence = entry'.sequence
  timestamp : entry.timestamp = entry'.timestamp
  actionId : entry.actionId = entry'.actionId
  actionHash : entry.actionHash = entry'.actionHash
  stage : entry.stage = entry'.stage
  data : ∀ key, entry.data.get key = entry'.data.get key
  previousHash : entry.previousHash = entry'.previousHash
  entryHash : entry.entryHash = entry'.entryHash

/-! ## The text of an entry -/

theorem scalar_plain (scalar : LedgerScalar) : scalar.toJson.Plain := by
  cases scalar with
  | fraction text => exact text.property
  | _ => trivial

theorem scalar_ordered (scalar : LedgerScalar) : scalar.toJson.ordered = scalar.toJson := by
  cases scalar <;> simp [LedgerScalar.toJson, Json.ordered]

theorem scalar_injective : Function.Injective LedgerScalar.toJson := by
  intro x y h
  cases x <;> cases y <;> simp_all [LedgerScalar.toJson, Subtype.ext_iff]

theorem data_plain (data : LedgerData) : data.toJson.Plain := by
  refine Json.plainFields_iff.mpr fun field hField => ?_
  obtain ⟨entry, _, rfl⟩ := List.mem_map.mp hField
  exact scalar_plain entry.2

theorem members_plain (base : EntryBase) : (Json.object base.members).Plain := by
  refine Json.plainFields_iff.mpr fun field hField => ?_
  simp only [EntryBase.members, List.mem_cons, List.not_mem_nil, or_false] at hField
  rcases hField with rfl | rfl | rfl | rfl | rfl | rfl | rfl | rfl | rfl | rfl
  case inr.inr.inr.inr.inr.inr.inr.inr.inl => exact data_plain base.data
  all_goals trivial

theorem lookup_eq_some_iff {fields : List (String × LedgerScalar)} (h : (fields.map Prod.fst).Nodup) {key : String}
    {scalar : LedgerScalar} : fields.lookup key = some scalar ↔ (key, scalar) ∈ fields := by
  induction fields with
  | nil => simp
  | cons field rest ih =>
    obtain ⟨name, value⟩ := field
    rw [List.map_cons, List.nodup_cons] at h
    rw [List.lookup_cons, List.mem_cons, Prod.mk.injEq]
    by_cases hKey : key = name
    · subst hKey
      have hRest : (key, scalar) ∉ rest := fun hMem => h.1 (List.mem_map.mpr ⟨_, hMem, rfl⟩)
      simp [hRest, eq_comm]
    · have hOther : (key == name) = false := beq_eq_false_iff_ne.mpr hKey
      simp [hOther, hKey, ih h.2]

theorem data_get_of_ordered {data data' : LedgerData} (h : data.toJson.ordered = data'.toJson.ordered) (key : String) :
    data.get key = data'.get key := by
  have hPerm := Json.perm_of_ordered h
  have hOrdered : ∀ data : LedgerData, ((data.fields.map fun field => (field.1, field.2.toJson)).map
      fun field => (field.1, field.2.ordered)) = data.fields.map (Prod.map id LedgerScalar.toJson) := by
    intro data
    rw [List.map_map]
    exact List.map_congr_left fun field _ => Prod.ext rfl (scalar_ordered field.2)
  rw [hOrdered, hOrdered, List.map_perm_map_iff (Function.injective_id.prodMap scalar_injective)] at hPerm
  refine Option.ext fun scalar => ?_
  rw [LedgerData.get, LedgerData.get, lookup_eq_some_iff data.distinct, lookup_eq_some_iff data'.distinct]
  exact hPerm.mem_iff

theorem stage_text_injective : Function.Injective LedgerStage.text := by
  intro x y h
  cases x <;> cases y <;> first | rfl | exact absurd h (by decide)

theorem agrees_of_canonical {entry entry' : LedgerEntry} (hText : entry.canonical = entry'.canonical)
    (hHash : entry.entryHash = entry'.entryHash) : entry.Agrees entry' := by
  have hOrdered := Json.canonical_injective (members_plain entry.toEntryBase) (members_plain entry'.toEntryBase) hText
  have hMembers := Json.eq_of_perm_of_keys (Json.perm_of_ordered hOrdered) rfl (by simp [EntryBase.members])
  simp only [EntryBase.members, List.map_cons, List.map_nil, Json.ordered, List.cons.injEq, Prod.mk.injEq, true_and,
    Json.string.injEq, Json.number.injEq, and_true, Int.natCast_inj, Subtype.val_inj] at hMembers
  obtain ⟨hTenant, hSequence, hTime, hAction, hDigest, hStage, hData, hPrevious⟩ := hMembers
  exact ⟨hTenant, hSequence, hTime, hAction, hDigest, stage_text_injective hStage, data_get_of_ordered hData, hPrevious,
    hHash⟩

/-! ## The head of a tenant -/

/-- The texts under the hashes of the entries of a tenant. -/
def hashedTexts (tenantId : Identifier) (entries : List LedgerEntry) : Set String :=
  { text | ∃ entry ∈ entriesOf tenantId entries, entry.canonical = text }

/-- Two accepted states with the same head and the same number of entries of a tenant have the same entries of the
tenant in the same order. -/
theorem same_head_same_entries (value value' : JsValue) (state state' : ActionLedgerState)
    (h : validateState value = .ok state) (h' : validateState value' = .ok state')
    (tenant tenant' : LedgerTenantState) (hTenant : tenant ∈ state.tenants) (hTenant' : tenant' ∈ state'.tenants)
    (hId : tenant.tenantId = tenant'.tenantId) (hHead : tenant.headHash = tenant'.headHash)
    (hCount : tenant.entryCount = tenant'.entryCount)
    (hInjective : Set.InjOn sha256
      (hashedTexts tenant.tenantId state.entries ∪ hashedTexts tenant.tenantId state'.entries)) :
    List.Forall₂ LedgerEntry.Agrees (entriesOf tenant.tenantId state.entries) (entriesOf tenant.tenantId state'.entries) := by
  have hAccepted := validateState_ok h
  have hAccepted' := validateState_ok h'
  have hChained := hAccepted.chained tenant hTenant
  have hChained' := hAccepted'.chained tenant' hTenant'
  rw [← hId] at hChained'
  have hLength : (entriesOf tenant.tenantId state.entries).length = (entriesOf tenant.tenantId state'.entries).length := by
    rw [hChained.count, hChained'.count, hCount]
  have hLatest : entryChain.latest (genesisHash tenant.tenantId) (entriesOf tenant.tenantId state.entries) =
      entryChain.latest (genesisHash tenant.tenantId) (entriesOf tenant.tenantId state'.entries) := by
    rw [← hChained.head, hHead, hChained'.head, hId]
  have hLinked' := hChained'.linked.1
  rw [← hId] at hLinked'
  refine (HashChain.agree_of_latest hLength hChained.linked.1 hLinked' hLatest fun entry hEntry entry' hEntry' hHash => ?_).1
  have hSealed := hAccepted.sealed entry (List.mem_filter.mp hEntry).1
  have hSealed' := hAccepted'.sealed entry' (List.mem_filter.mp hEntry').1
  have hHashes : sha256 entry.canonical = sha256 entry'.canonical := by
    have hSame : (hashOf entry.canonical).val = (hashOf entry'.canonical).val := by
      have hSeals : entry.toEntryBase.seal.entryHash = entry'.toEntryBase.seal.entryHash :=
        hSealed.symm.trans (hHash.trans hSealed')
      exact congrArg Subtype.val hSeals
    exact hSame
  have hText := hInjective (.inl ⟨entry, hEntry, rfl⟩) (.inr ⟨entry', hEntry', rfl⟩) hHashes
  have hAgrees := agrees_of_canonical hText hHash
  exact ⟨hAgrees, hAgrees.previousHash⟩

def holdTenant : LedgerTenantState := { freshTenant acme with legalHold := true }

def holdTime : Timestamp := ⟨Date.toISOString 1786881600000, by decide +kernel⟩

def holdCore : EntryCore := ⟨acme, holdTime, holdName, hashOf ("legal-hold:" ++ acme.val), .legalHold, holdData⟩

def firstState : ActionLedgerState := pushed holdTenant holdCore heldState

def otherTenant : Identifier := ⟨"other", by decide +kernel⟩

def secondState : ActionLedgerState := { firstState with tenants := firstState.tenants ++ [freshTenant otherTenant] }

theorem firstState_valid : Valid firstState :=
  (pushed_advances heldState_valid (by decide) (List.mem_singleton_self _) rfl 0).valid

theorem secondState_valid : Valid secondState :=
  firstState_valid.create (by decide +kernel) (by decide +kernel)

theorem first_and_second_agree : List.Forall₂ LedgerEntry.Agrees (entriesOf acme firstState.entries)
    (entriesOf acme secondState.entries) := by
  have hFirst : extended (nextEntry holdTenant holdCore) holdTenant ∈ firstState.tenants := List.mem_singleton_self _
  have hOne : ∀ text ∈ hashedTexts acme firstState.entries, text = (nextEntry holdTenant holdCore).canonical := by
    rintro text ⟨entry, hEntry, rfl⟩
    rw [List.mem_singleton.mp (mem_entriesOf.mp hEntry).1]
  refine same_head_same_entries _ _ _ _ (validateState_toValue firstState_valid.accepted)
    (validateState_toValue secondState_valid.accepted) _ _ hFirst (List.mem_append_left _ hFirst) rfl rfl rfl ?_
  intro text hText text' hText' _
  rw [hOne text (hText.elim id id), hOne text' (hText'.elim id id)]

end GhostApi.Ledger
