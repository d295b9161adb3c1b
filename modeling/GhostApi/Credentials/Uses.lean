import GhostApi.Credentials.Broker
import Mathlib.Data.List.Nodup

/-!
# What the locked operations do to the receipts

Only the start of a use adds a receipt and only its completion changes one.
Every state that is written is valid, so that receipts have ids and grants of
their own from the first write on.
-/

namespace GhostApi.Credentials

open Js Validation Storage Effect Effect.Mutation Table

theorem format_accepts : format.Accepts fun state => validateState state = .ok state := by
  intro state state'
  constructor
  · intro h
    obtain ⟨rfl, _⟩ := validateState_ok h
    exact ⟨h, rfl⟩
  · rintro ⟨h, rfl⟩
    exact h

def stored (store : Store) : CredentialBrokerState := store.getD emptyState

theorem Distinct.of_receipts {state state' : CredentialBrokerState} (h : Distinct state)
    (hSame : state'.receipts = state.receipts) : Distinct state' where
  ids := hSame ▸ h.ids
  grants := hSame ▸ h.grants

theorem Distinct.eq_of_id {state : CredentialBrokerState} (h : Distinct state) {a b : CredentialUseReceipt}
    (ha : a ∈ state.receipts) (hb : b ∈ state.receipts) (hId : a.id = b.id) : a = b :=
  List.inj_on_of_nodup_map h.ids ha hb (congrArg Subtype.val hId)

theorem Distinct.eq_of_grant {state : CredentialBrokerState} (h : Distinct state) {a b : CredentialUseReceipt}
    (ha : a ∈ state.receipts) (hb : b ∈ state.receipts) (hGrant : a.grantId = b.grantId) : a = b :=
  List.inj_on_of_nodup_map h.grants ha hb (congrArg Subtype.val hGrant)

theorem locked_cases {α : Type} {operation : Int → Op α} {choice : Choice} {w w' : World} {reply : Except JsError α}
    (h : locked operation choice w = (reply, w')) :
    ((∃ e, reply = .error e) ∧ w' = w) ∨ ∃ a now state, operation now (stored w.store) = (.ok a, state) ∧
      Distinct state ∧ w' = { w with store := some state } ∧ (reply = .ok a ∨ ∃ e, reply = .error e) := by
  rw [locked] at h
  split at h
  · cases h
    exact .inl ⟨⟨_, rfl⟩, rfl⟩
  · rename_i a state hRun
    obtain ⟨_, _, hMutate⟩ := bind_eq_ok hRun
    obtain ⟨now, _, hOperation, hValid⟩ := format_accepts.mutate_ok hMutate
    have hDistinct := (validateState_ok hValid).2
    split at h
    · cases h
      exact .inr ⟨a, now, state, hOperation, hDistinct, rfl, .inl rfl⟩
    · by_cases hReached : choice.reached = true
      · rw [if_pos hReached] at h
        cases h
        exact .inr ⟨a, now, state, hOperation, hDistinct, rfl, .inr ⟨_, rfl⟩⟩
      · rw [if_neg hReached] at h
        cases h
        exact .inl ⟨⟨_, rfl⟩, rfl⟩

/-! ## Operations that leave the receipts alone -/

theorem registerOp_keeps (candidate : CredentialMetadata) (now : Int) :
    (registerOp candidate now).Keeps CredentialBrokerState.receipts :=
  keeps_get.bind fun _ => (keeps_throwIf _ _).bind fun _ =>
    Keeps.bind (keeps_modify fun _ => rfl) fun _ => keeps_pure _

theorem rotateOp_keeps (tenantId credentialId : Identifier) (vaultRef : Reference) (expiresAt : Timestamp) (now : Int) :
    (rotateOp tenantId credentialId vaultRef expiresAt now).Keeps CredentialBrokerState.receipts :=
  keeps_get.bind fun _ => (keeps_lift _).bind fun _ => (keeps_throwIf _ _).bind fun _ =>
    Keeps.bind (keeps_modify fun _ => rfl) fun _ => keeps_pure _

theorem revokeOp_keeps (tenantId credentialId : Identifier) (now : Int) :
    (revokeOp tenantId credentialId now).Keeps CredentialBrokerState.receipts :=
  keeps_get.bind fun _ => (keeps_lift _).bind fun _ => keeps_modify fun _ => rfl

theorem issueOp_keeps (workload : WorkloadIdentity) (request : CredentialAccessRequest) (expiresAt : Timestamp)
    (authorized : Except JsError JsValue) (uuid : String) (now : Int) :
    (issueOp workload request expiresAt authorized uuid now).Keeps CredentialBrokerState.receipts :=
  keeps_get.bind fun _ => (keeps_lift _).bind fun _ => (keeps_lift _).bind fun _ => (keeps_lift _).bind fun _ =>
    (keeps_lift _).bind fun _ => (keeps_throwIf _ _).bind fun _ => (keeps_throwIf _ _).bind fun _ =>
    (keeps_throwIf _ _).bind fun _ => (keeps_lift _).bind fun _ =>
    Keeps.bind (keeps_modify fun _ => rfl) fun _ => keeps_pure _

def World.receipts (w : World) : List CredentialUseReceipt := (stored w.store).receipts

/-- A step that neither touches a receipt nor calls the executor. -/
structure SameUses (w w' : World) : Prop where
  receipts : w'.receipts = w.receipts
  executions : w'.executions = w.executions

theorem locked_sameUses {α : Type} {operation : Int → Op α} {choice : Choice} {w w' : World}
    {reply : Except JsError α} (hKeeps : ∀ now, (operation now).Keeps CredentialBrokerState.receipts)
    (h : locked operation choice w = (reply, w')) : SameUses w w' := by
  rcases locked_cases h with ⟨_, rfl⟩ | ⟨a, now, state, hRun, _, rfl, _⟩
  · exact ⟨rfl, rfl⟩
  · exact ⟨(hKeeps now).of_eq hRun, rfl⟩

/-! ## The start of a use -/

theorem startOp_ok {executor : CredentialExecutor} {workload : WorkloadIdentity} {grantId : Identifier}
    {request : CredentialAccessRequest} {verified : Except JsError Unit} {uuid : String} {now : Int}
    {state state' : CredentialBrokerState} {started : Started}
    (h : startOp executor workload grantId request verified uuid now state = (.ok started, state')) :
    ((∃ prior, started = .prior prior) ∧ state' = state) ∨ ∃ grant credential receipt,
      started = .fresh grant credential receipt ∧ state'.receipts = state.receipts ++ [receipt] ∧
      receipt.grantId = grant.id ∧ receipt.status = .executing ∧ ∀ other ∈ state.receipts, other.grantId ≠ grant.id := by
  obtain ⟨_, _, hGet, h⟩ := bind_ok h
  obtain ⟨rfl, rfl⟩ := get_ok hGet
  obtain ⟨⟨grant, credential⟩, _, hUsable, h⟩ := bind_ok h
  obtain ⟨_, rfl⟩ := lift_ok hUsable
  cases hFind : state.receipts.find? (·.grantId == grant.id) with
  | some prior =>
    simp only [hFind] at h
    cases hStatus : prior.status with
    | executed _ =>
      simp only [hStatus] at h
      cases h
      exact .inl ⟨⟨_, rfl⟩, rfl⟩
    | _ =>
      simp only [hStatus] at h
      cases h
  | none =>
    simp only [hFind] at h
    obtain ⟨_, _, hVerified, h⟩ := bind_ok h
    obtain ⟨_, rfl⟩ := lift_ok hVerified
    obtain ⟨id, _, hName, h⟩ := bind_ok h
    obtain ⟨_, rfl⟩ := lift_ok hName
    cases h
    refine .inr ⟨grant, credential, _, rfl, rfl, rfl, rfl, ?_⟩
    intro other hMem hGrant
    simpa [hGrant] using List.find?_eq_none.mp hFind other hMem

/-! ## The completion of a use -/

theorem complete_ok {receipt : CredentialUseReceipt} {now : Int} {completion : Completion}
    {state state' : CredentialBrokerState} {status : ReceiptStatus}
    (h : complete receipt now completion state = (.ok status, state')) :
    state'.receipts = state.receipts ∧ status ≠ .executing ∧ (completion ≠ .failed → status ≠ .failed) := by
  cases completion with
  | executed providerRequestId =>
    obtain ⟨id, _, hId, h⟩ := bind_ok h
    obtain ⟨_, rfl⟩ := lift_ok hId
    obtain ⟨_, _, hGet, h⟩ := bind_ok h
    obtain ⟨rfl, rfl⟩ := get_ok hGet
    obtain ⟨credential, _, hFind, h⟩ := bind_ok h
    obtain ⟨_, rfl⟩ := lift_ok hFind
    cases h
    exact ⟨rfl, by rintro ⟨⟩, by rintro _ ⟨⟩⟩
  | failed =>
    cases h
    exact ⟨rfl, by rintro ⟨⟩, fun h => absurd rfl h⟩
  | unknown =>
    cases h
    exact ⟨rfl, by rintro ⟨⟩, by rintro _ ⟨⟩⟩

/-- A receipt that is completed: only its status and its time are new. -/
structure CredentialUseReceipt.CompletesTo (receipt completed : CredentialUseReceipt) : Prop where
  executing : receipt.status = .executing
  ended : completed.status ≠ .executing
  same : completed = { receipt with status := completed.status, executedAt := completed.executedAt }

theorem completeOp_ok {receiptId : Identifier} {completion : Completion} {now : Int}
    {state state' : CredentialBrokerState} {completed : CredentialUseReceipt}
    (h : completeOp receiptId completion now state = (.ok completed, state')) :
    ∃ receipt, state.receipts.find? (·.id == receiptId) = some receipt ∧ receipt.CompletesTo completed ∧
      (completion ≠ .failed → completed.status ≠ .failed) ∧
      state'.receipts = setReceipt completed state.receipts := by
  obtain ⟨_, _, hGet, h⟩ := bind_ok h
  obtain ⟨rfl, rfl⟩ := get_ok hGet
  cases hFind : state.receipts.find? (·.id == receiptId) with
  | none =>
    simp only [hFind] at h
    cases h
  | some receipt =>
    simp only [hFind] at h
    obtain ⟨_, _, hThrow, h⟩ := bind_ok h
    obtain ⟨hActive, rfl⟩ := throwIf_ok hThrow
    obtain ⟨status, t, hComplete, h⟩ := bind_ok h
    obtain ⟨hReceipts, hOver, hFailed⟩ := complete_ok hComplete
    cases h
    exact ⟨receipt, rfl, ⟨not_not.mp hActive, hOver, rfl⟩, hFailed, by rw [← hReceipts]⟩

end GhostApi.Credentials
