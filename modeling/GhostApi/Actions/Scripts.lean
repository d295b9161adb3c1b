import GhostApi.Actions.Gateway
import GhostApi.Actions.Size

/-!
# Calls that succeed

How far submit and execute get when their parts answer as a script says: the
clock stands still, every new UUID is the same and the calls that only look
change nothing. The records written on the way are accepted.
-/

namespace GhostApi.Actions

open Js Validation Effect Effect.Program Safety

theorem StoredAction.Valid.push {record : StoredAction} {base : ReceiptBase} (h : record.Valid)
    (hAction : base.actionId = record.envelope.actionId ∧ base.actionHash = record.actionHash)
    (hPrevious : base.previousReceiptHash = receiptChain.latest (receiptGenesisHash record.actionHash) record.receipts)
    (hProvider : base.status = .committed ∨ base.status = .verified →
      base.providerRequestId ≠ none ∧ base.result ≠ none)
    (hFailure : base.status = .failed → base.failure ≠ none) (hSize : record.receipts.length < MAX_RECEIPTS) :
    (record.push base.seal).Valid where
  hash := h.hash
  bound := h.bound
  independent := h.independent
  size := by
    rw [StoredAction.push, List.length_append, List.length_singleton]
    exact hSize
  receipts := by
    intro receipt hMem
    rcases List.mem_append.mp hMem with hOld | hNew
    · exact h.receipts receipt hOld
    · obtain rfl := List.mem_singleton.mp hNew
      exact ⟨hAction, hProvider, hFailure, rfl⟩
  linked := HashChain.linked_append.mpr ⟨h.linked, hPrevious⟩
  requested := by
    have hRequested := h.requested
    cases hReceipts : record.receipts with
    | nil =>
      rw [hReceipts] at hRequested
      cases hRequested
    | cons first rest =>
      rw [hReceipts] at hRequested
      rw [StoredAction.push, hReceipts]
      exact hRequested

section Scripted

variable {σ Op : Type} {Ans : Op → Type} {χ Lease : Type}

structure Scripted (env : Environment σ Op Ans JsError χ) (guard : Op → σ → Prop) (gateway : Gateway Op Ans Lease)
    (ms : Int) (uuid : String) : Prop where
  now : ∀ s, Returns env guard gateway.now s (some ms) s
  randomUUID : ∀ s, Returns env guard gateway.randomUUID s uuid s
  date : ms.natAbs ≤ 8640000000000000
  printable : Printable ms
  name : isIdentifier (receiptName uuid) = true

/-- The receipt that the gateway adds to a record at a time under a name. -/
def receiptAt (record : StoredAction) (receiptId : Identifier) (status : ActionReceiptStatus) (timestamp : Timestamp)
    (providerRequestId : Option Identifier) (result : Option ActionResult) (failure : Option ActionFailure) :
    ReceiptBase where
  receiptId
  actionId := record.envelope.actionId
  actionHash := record.actionHash
  status
  timestamp
  providerRequestId
  result
  failure
  previousReceiptHash := receiptChain.latest (receiptGenesisHash record.actionHash) record.receipts

variable {env : Environment σ Op Ans JsError χ} {guard : Op → σ → Prop} {gateway : Gateway Op Ans Lease}
  {ms : Int} {uuid : String} {s t : σ} {actionId : Identifier} {record : StoredAction}

theorem write_returns (hValid : record.Valid) (hWrite : Returns env guard (gateway.writeFile actionId record) s () t) :
    Returns env guard (gateway.writeStoredAction actionId record) s () t :=
  reaches_lift_bind (validateStoredAction_eq_ok.mpr ⟨hValid, rfl⟩) hWrite

theorem read_returns {required : Bool} (hValid : record.Valid) (hSize : record.bytes ≤ MAX_ACTION_BYTES)
    (hRead : Returns env guard (gateway.readFile actionId) s (some record) s) :
    Returns env guard (gateway.readStoredAction actionId required) s (some record) s := by
  refine hRead.andThen (reaches_throwIf_bind (Nat.not_lt.mpr hSize) ?_)
  exact reaches_lift_bind (validateStoredAction_eq_ok.mpr ⟨hValid, rfl⟩) (.refl _ _)

namespace Scripted

variable (script : Scripted env guard gateway ms uuid)

include script

theorem current_returns (s : σ) : Returns env guard gateway.current s ms s := by
  refine (script.now s).andThen (reaches_throwIf_bind ?_ (.refl _ _))
  exact Nat.not_lt.mpr script.date

theorem createReceipt_returns {status : ActionReceiptStatus} {provider : Option Identifier}
    {normalized : Option ActionResult} {providerRequestId result : JsValue} (failure : Option ActionFailure)
    (hProvider : optionally (safeIdentifier · "Provider request id") providerRequestId = .ok provider)
    (hResult : optionally normalizeResult result = .ok normalized) (record : StoredAction) (s : σ) :
    Returns env guard (gateway.createReceipt record status ms providerRequestId result failure) s
      (receiptAt record ⟨receiptName uuid, script.name⟩ status ⟨Date.toISOString ms, script.printable⟩ provider
        normalized failure).seal s := by
  have hName : safeIdentifier (.string (receiptName uuid)) "Receipt id" = .ok ⟨receiptName uuid, script.name⟩ :=
    dif_pos script.name
  have hTime : Validation.timestamp refuse (.string (Date.toISOString ms)) "Action receipt timestamp" =
      .ok ⟨Date.toISOString ms, script.printable⟩ := dif_pos script.printable
  refine (script.randomUUID s).andThen ?_
  refine reaches_lift_bind hName ?_
  refine reaches_lift_bind hTime ?_
  refine reaches_lift_bind hProvider ?_
  exact reaches_lift_bind hResult (.refl _ _)

theorem issue_returns {status : ActionReceiptStatus} {provider : Option Identifier} {normalized : Option ActionResult}
    {providerRequestId result : JsValue} (failure : Option ActionFailure)
    (hProvider : optionally (safeIdentifier · "Provider request id") providerRequestId = .ok provider)
    (hResult : optionally normalizeResult result = .ok normalized) (hSize : record.receipts.length < MAX_RECEIPTS)
    (s : σ) :
    let receipt := (receiptAt record ⟨receiptName uuid, script.name⟩ status ⟨Date.toISOString ms, script.printable⟩
      provider normalized failure).seal
    Returns env guard (gateway.issue record status ms providerRequestId result failure) s
      (receipt, record.push receipt) s := by
  intro receipt
  refine (script.createReceipt_returns failure hProvider hResult record s).andThen ?_
  have hAppend : appendReceipt record receipt = .ok (record.push receipt) := if_neg (Nat.not_le.mpr hSize)
  exact reaches_lift_bind hAppend (.refl _ _)

def requestedRecord (action : ActionEnvelope) (approval : ActionApproval) : StoredAction :=
  let record : StoredAction := ⟨action, actionHash action, approval, []⟩
  { record with receipts := [(receiptAt record ⟨receiptName uuid, script.name⟩ .requested
      ⟨Date.toISOString ms, script.printable⟩ none none none).seal] }

theorem requestedRecord_valid {action : ActionEnvelope} {approval : ActionApproval}
    (hApproval : verifyApproval action approval ms true = .ok ()) : (script.requestedRecord action approval).Valid := by
  obtain ⟨hHash, hIndependent, _⟩ := verifyApproval_eq_ok.mp hApproval
  refine ⟨rfl, hHash, hIndependent, ?_, ?_, ⟨rfl, trivial⟩, rfl⟩
  · exact (by decide : 1 ≤ MAX_RECEIPTS)
  · intro receipt hReceipt
    obtain rfl := List.mem_singleton.mp hReceipt
    refine ⟨⟨rfl, rfl⟩, ?_, ?_, rfl⟩
    · simp [receiptAt, ReceiptBase.seal]
    · simp [receiptAt, ReceiptBase.seal]

theorem submitAction_returns {action : ActionEnvelope} {approval : ActionApproval} {policy : ActionPolicyCheck}
    {verification : Option String}
    (hProvenance : Returns env guard (gateway.verifyProvenance action approval .submit) s verification s)
    (hInbox : requireApprovalInboxVerification approval verification = .ok ())
    (hPolicy : verifyPolicy action policy = .ok ()) (hRead : Returns env guard (gateway.readFile action.actionId) s none s)
    (hFresh : ms < timeOf action.expiresAt) (hApproval : verifyApproval action approval ms true = .ok ())
    (hWrite : Returns env guard
      (gateway.writeFile action.actionId (script.requestedRecord action approval)) s () t) :
    Returns env guard (gateway.submitAction action approval policy) s (script.requestedRecord action approval) t := by
  have hFound : Returns env guard (gateway.readStoredAction action.actionId false) s none s :=
    hRead.andThen (reaches_throwIf_bind (by decide) (.refl _ _))
  refine hProvenance.andThen ?_
  refine reaches_lift_bind hInbox ?_
  refine (script.current_returns s).andThen ?_
  refine reaches_lift_bind hPolicy ?_
  refine hFound.andThen ?_
  refine reaches_throwIf_bind (not_le.mpr hFresh) ?_
  refine reaches_lift_bind hApproval ?_
  refine (script.createReceipt_returns none rfl rfl _ s).andThen ?_
  exact (write_returns (script.requestedRecord_valid hApproval) hWrite).andThen (.refl _ _)

theorem executeAction_reaches {requested : ActionEnvelope} {identity : ActionExecutionIdentity}
    {policy : ActionPolicyCheck} {verification : Option String} {q : Program Op Ans JsError ActionExecutionReceipt}
    (hRead : Returns env guard (gateway.readStoredAction requested.actionId true) s (some record) s)
    (hProvenance : Returns env guard (gateway.verifyProvenance record.envelope record.approval .execute) s
      verification s)
    (hInbox : requireApprovalInboxVerification record.approval verification = .ok ())
    (hUnchanged : assertUnchanged requested record identity policy ms = .ok ())
    (hSupports : Returns env guard (gateway.supports record.envelope.operation) s true s)
    (hNext : Reaches env guard (gateway.proceed requested.actionId record ms) s q t) :
    Reaches env guard (gateway.executeAction requested identity policy) s q t := by
  refine hRead.andThen ?_
  refine hProvenance.andThen ?_
  refine reaches_lift_bind hInbox ?_
  refine (script.current_returns s).andThen ?_
  refine reaches_lift_bind hUnchanged ?_
  refine hSupports.andThen ?_
  exact reaches_throwIf_bind (by decide) hNext

def next (record : StoredAction) (status : ActionReceiptStatus) (provider : Option Identifier)
    (result : Option ActionResult) (failure : Option ActionFailure) : ActionExecutionReceipt :=
  (receiptAt record ⟨receiptName uuid, script.name⟩ status ⟨Date.toISOString ms, script.printable⟩ provider result
    failure).seal

theorem push_valid (status : ActionReceiptStatus) (provider : Option Identifier) (result : Option ActionResult)
    (failure : Option ActionFailure) (h : record.Valid)
    (hProvider : status = .committed ∨ status = .verified → provider ≠ none ∧ result ≠ none)
    (hFailure : status = .failed → failure ≠ none) (hSize : record.receipts.length < MAX_RECEIPTS) :
    (record.push (script.next record status provider result failure)).Valid :=
  h.push ⟨rfl, rfl⟩ rfl hProvider hFailure hSize

theorem attempt_reaches {lease : Lease} {reply : Except JsError ActionExecution} {u w : σ}
    {q : Program Op Ans JsError ActionExecutionReceipt} {r : σ} (hValid : record.Valid)
    (hSize : record.receipts.length < MAX_RECEIPTS) (hFresh : ms < timeOf record.envelope.expiresAt)
    (hApproval : verifyApproval record.envelope record.approval ms true = .ok ())
    (hPlan : Returns env guard (gateway.plan record.envelope) s () s)
    (hSimulate : Returns env guard (gateway.simulate record.envelope) s () s)
    (hAdmit : Returns env guard (gateway.admitAction (safetyAction record.envelope record.actionHash)) s
      ⟨lease, false⟩ t)
    (hWrite : Returns env guard
      (gateway.writeFile actionId (record.push (script.next record .attempted none none none))) t () u)
    (hExecute : Reaches env guard (gateway.adapterExecute record.envelope lease) u (done reply) w)
    (hNext : Reaches env guard (gateway.settle actionId (record.push (script.next record .attempted none none none))
      lease reply.toOption) w q r) :
    Reaches env guard (gateway.attempt actionId record ms) s q r := by
  have hAttempted := script.push_valid .attempted none none none
    hValid (by simp) (by simp) hSize
  refine reaches_throwIf_bind (not_le.mpr hFresh) ?_
  refine reaches_lift_bind hApproval ?_
  refine hPlan.andThen ?_
  refine hSimulate.andThen ?_
  refine hAdmit.andThen ?_
  refine reaches_throwIf_bind (by simp) ?_
  refine (script.issue_returns none rfl rfl hSize t).andThen ?_
  refine (write_returns hAttempted hWrite).andThen ?_
  exact hExecute.caught.andThen hNext

theorem confirm_reaches {lease : Lease} {provider proved : Identifier} {committed verified : ActionResult}
    {providerRequestId result : JsValue} {verification : ActionVerification} {u : σ} (hValid : record.Valid)
    (hSize : record.receipts.length + 1 < MAX_RECEIPTS)
    (hProvider : optionally (safeIdentifier · "Provider request id") providerRequestId = .ok (some provider))
    (hResult : optionally normalizeResult result = .ok (some committed))
    (hCommit : Returns env guard (gateway.writeFile actionId
      (record.push (script.next record .committed (some provider) (some committed) none))) s () t)
    (hVerify : Returns env guard (gateway.adapterVerify record.envelope) t verification t)
    (hProof : verification.incomplete = false)
    (hProved : optionally (safeIdentifier · "Provider request id") verification.providerRequestId = .ok (some proved))
    (hVerified : optionally normalizeResult verification.result = .ok (some verified))
    (hWrite : Returns env guard (gateway.writeFile actionId
      ((record.push (script.next record .committed (some provider) (some committed) none)).push
        (script.next (record.push (script.next record .committed (some provider) (some committed) none)) .verified
          (some proved) (some verified) none))) t () u) :
    Reaches env guard (gateway.confirm actionId record lease providerRequestId result) s
      (do
        gateway.complete lease successOutcome
        return script.next (record.push (script.next record .committed (some provider) (some committed) none)) .verified
          (some proved) (some verified) none) u := by
  have hSize' : record.receipts.length < MAX_RECEIPTS := Nat.lt_of_succ_lt hSize
  have hCommitted := script.push_valid .committed (some provider) (some committed) none hValid (by simp) (by simp) hSize'
  have hLonger : (record.push (script.next record .committed (some provider) (some committed) none)).receipts.length <
      MAX_RECEIPTS := by
    rw [StoredAction.push, List.length_append]
    exact hSize
  have hClosed := script.push_valid .verified (some proved) (some verified) none hCommitted (by simp) (by simp) hLonger
  refine (script.current_returns s).andThen ?_
  refine (script.issue_returns none hProvider hResult hSize' s).andThen ?_
  refine (write_returns hCommitted hCommit).andThen ?_
  refine hVerify.andThen ?_
  rw [hProof]
  refine (script.current_returns t).andThen ?_
  refine (script.issue_returns none hProved hVerified hLonger t).andThen ?_
  exact (write_returns hClosed hWrite).andThen (.refl _ _)

end Scripted

end Scripted

/-! ## A small action -/

def firstName : Identifier := ⟨"a1", isIdentifier_of_name rfl rfl⟩

def actorName : Identifier := ⟨"b1", isIdentifier_of_name rfl rfl⟩

def workloadName : Identifier := ⟨"b2", isIdentifier_of_name rfl rfl⟩

def approverName : Identifier := ⟨"c1", isIdentifier_of_name rfl rfl⟩

def firstDay : Timestamp := ⟨"1970-01-01T00:00:00.000Z", by decide +kernel⟩

def secondDay : Timestamp := ⟨"1970-01-02T00:00:00.000Z", by decide +kernel⟩

theorem firstDay_eq : timeOf firstDay = 0 := by decide +kernel

theorem secondDay_eq : timeOf secondDay = 86400000 := by decide +kernel

def smallAction (operation : Identifier) (effects : List Identifier) : ActionEnvelope where
  actionId := firstName
  idempotencyKey := firstName
  actor := ⟨actorName, workloadName, .agent⟩
  projectId := firstName
  operation
  worldId := firstName
  expectedSideEffects := effects
  riskClass := .write
  reversibility := .none
  policy := ⟨⟨1, Nat.le_refl 1⟩, hashOf "policy"⟩
  evidenceHash := hashOf "evidence"
  expiresAt := secondDay
  nonce := firstName

def smallApproval (action : ActionEnvelope) (approvedBy : Identifier) : ActionApproval where
  approvalId := firstName
  actionHash := actionHash action
  approvedBy
  approvedAt := firstDay
  expiresAt := secondDay
  nonce := firstName
  keyId := firstName
  signature := ⟨String.ofList (List.replicate 86 'A'), by
    rw [isSignature, String.toList_ofList]
    decide⟩
  ordered := by
    rw [firstDay_eq, secondDay_eq]
    decide

def smallResult : ActionResult := ⟨firstName, firstName, firstName⟩

theorem optionally_provider : optionally (safeIdentifier · "Provider request id") (.string firstName.val) =
    .ok (some firstName) := by
  rw [optionally]
  simp [JsValue.isUndefined, safeIdentifier_val]

theorem optionally_result : optionally normalizeResult smallResult.toValue = .ok (some smallResult) := by
  have hDefined : smallResult.toValue.isUndefined = false := rfl
  simp [optionally, hDefined, normalizeResult_toValue]

theorem smallApproval_verified {action : ActionEnvelope} {approvedBy : Identifier}
    (hIndependent : approvedBy ≠ action.actor.id ∧ approvedBy ≠ action.actor.workloadId) (enforceExpiry : Bool) :
    verifyApproval action (smallApproval action approvedBy) 0 enforceExpiry = .ok () := by
  refine verifyApproval_eq_ok.mpr ⟨rfl, hIndependent, fun _ => ?_⟩
  rw [smallApproval, firstDay_eq, secondDay_eq]
  decide

def smallPolicy : ActionPolicyCheck := ⟨true, 1, (hashOf "policy").val⟩

def smallIdentity : ActionExecutionIdentity := ⟨actorName.val, workloadName.val⟩

theorem smallPolicy_verified (operation : Identifier) (effects : List Identifier) :
    verifyPolicy (smallAction operation effects) smallPolicy = .ok () := by
  have hVersion : smallPolicy.version = (smallAction operation effects).policy.version.val := rfl
  have hHash : smallPolicy.hash = (smallAction operation effects).policy.hash.val := rfl
  have hAllowed : smallPolicy.allowed = true := rfl
  simp [verifyPolicy, hVersion, hHash, hAllowed, pure, Except.pure]

theorem smallAction_unchanged {operation : Identifier} {effects : List Identifier} {record : StoredAction}
    (hValid : record.Valid) (hEnvelope : record.envelope = smallAction operation effects) (current : Int) :
    assertUnchanged (smallAction operation effects) record smallIdentity smallPolicy current = .ok () := by
  have hApproval : verifyApproval record.envelope record.approval current false = .ok () :=
    verifyApproval_eq_ok.mpr ⟨hValid.bound.trans hValid.hash, hValid.independent, by simp⟩
  have hHash : actionHash (smallAction operation effects) = record.actionHash := by rw [hValid.hash, hEnvelope]
  rw [assertUnchanged, hApproval, hEnvelope, smallPolicy_verified, hHash]
  simp [smallIdentity, smallAction, pure, Except.pure]
  rfl

theorem smallRecord_bytes {operation : Identifier} {effects : List Identifier} {record : StoredAction}
    (hEnvelope : record.envelope = smallAction operation effects) (hEffects : effects.length ≤ 16)
    (hReceipts : record.receipts.length ≤ 4) : record.bytes ≤ MAX_ACTION_BYTES := by
  refine StoredAction.bytes_le hReceipts ?_ ?_
  · rw [hEnvelope]
    exact hEffects
  · rw [hEnvelope]
    exact (by decide : 1 ≤ MAX_SAFE_INTEGER)

/-! ## Its execution -/

section Small

variable {σ Op : Type} {Ans : Op → Type} {χ Lease : Type} {env : Environment σ Op Ans JsError χ}
  {guard : Op → σ → Prop} {gateway : Gateway Op Ans Lease} {uuid : String}
  (script : Scripted env guard gateway 0 uuid)

namespace Scripted

def smallRequested (operation : Identifier) (effects : List Identifier) : StoredAction :=
  script.requestedRecord (smallAction operation effects) (smallApproval (smallAction operation effects) approverName)

def smallAttempted (record : StoredAction) : StoredAction := record.push (script.next record .attempted none none none)

def smallCommitted (record : StoredAction) : StoredAction :=
  (script.smallAttempted record).push
    (script.next (script.smallAttempted record) .committed (some firstName) (some smallResult) none)

/-- The receipt that the execution of the small action returns. -/
def smallReceipt (record : StoredAction) : ActionExecutionReceipt :=
  script.next (script.smallCommitted record) .verified (some firstName) (some smallResult) none

def smallVerified (record : StoredAction) : StoredAction :=
  (script.smallCommitted record).push (script.smallReceipt record)

theorem smallApproved (operation : Identifier) (effects : List Identifier) :
    verifyApproval (smallAction operation effects) (smallApproval (smallAction operation effects) approverName) 0 true =
      .ok () :=
  smallApproval_verified (by decide : approverName ≠ actorName ∧ approverName ≠ workloadName) true

theorem smallRequested_valid (operation : Identifier) (effects : List Identifier) :
    (script.smallRequested operation effects).Valid :=
  script.requestedRecord_valid (smallApproved operation effects)

variable {operation : Identifier} {effects : List Identifier} {s t : σ}

theorem small_submitted {verification : Option String}
    (hProvenance : Returns env guard (gateway.verifyProvenance (smallAction operation effects)
      (smallApproval (smallAction operation effects) approverName) .submit) s verification s)
    (hInbox : requireApprovalInboxVerification (smallApproval (smallAction operation effects) approverName)
      verification = .ok ())
    (hRead : Returns env guard (gateway.readFile firstName) s none s)
    (hWrite : Returns env guard (gateway.writeFile firstName (script.smallRequested operation effects)) s () t) :
    Returns env guard (gateway.submitAction (smallAction operation effects)
      (smallApproval (smallAction operation effects) approverName) smallPolicy) s
      (script.smallRequested operation effects) t := by
  have hFresh : (0 : Int) < timeOf (smallAction operation effects).expiresAt := by
    change 0 < timeOf secondDay
    rw [secondDay_eq]
    decide
  exact script.submitAction_returns hProvenance hInbox (smallPolicy_verified operation effects) hRead hFresh
    (smallApproved operation effects) hWrite

theorem small_attempted {lease : Lease} {verification : Option String} {reply : Except JsError ActionExecution} {u w : σ}
    (hEffects : effects.length ≤ 16)
    (hRead : Returns env guard (gateway.readFile firstName) s (some (script.smallRequested operation effects)) s)
    (hProvenance : Returns env guard (gateway.verifyProvenance (smallAction operation effects)
      (smallApproval (smallAction operation effects) approverName) .execute) s verification s)
    (hInbox : requireApprovalInboxVerification (smallApproval (smallAction operation effects) approverName)
      verification = .ok ())
    (hSupports : Returns env guard (gateway.supports operation) s true s)
    (hPlan : Returns env guard (gateway.plan (smallAction operation effects)) s () s)
    (hSimulate : Returns env guard (gateway.simulate (smallAction operation effects)) s () s)
    (hAdmit : Returns env guard (gateway.admitAction (safetyAction (smallAction operation effects)
      (actionHash (smallAction operation effects)))) s ⟨lease, false⟩ t)
    (hAttempt : Returns env guard (gateway.writeFile firstName
      (script.smallAttempted (script.smallRequested operation effects))) t () u)
    (hExecute : Reaches env guard (gateway.adapterExecute (smallAction operation effects) lease) u (done reply) w) :
    Reaches env guard (gateway.executeAction (smallAction operation effects) smallIdentity smallPolicy) s
      (gateway.settle firstName (script.smallAttempted (script.smallRequested operation effects)) lease reply.toOption)
      w := by
  have hRequested := script.smallRequested_valid operation effects
  have hFresh : (0 : Int) < timeOf (smallAction operation effects).expiresAt := by
    change 0 < timeOf secondDay
    rw [secondDay_eq]
    decide
  have hStored : Returns env guard (gateway.readStoredAction firstName true) s
      (some (script.smallRequested operation effects)) s :=
    read_returns hRequested (smallRecord_bytes rfl hEffects (by decide : 1 ≤ 4)) hRead
  refine script.executeAction_reaches hStored hProvenance hInbox (smallAction_unchanged hRequested rfl 0) hSupports ?_
  exact script.attempt_reaches hRequested (by decide : 1 < MAX_RECEIPTS) hFresh (smallApproved operation effects) hPlan
    hSimulate hAdmit hAttempt hExecute (.refl _ _)

theorem smallAttempted_valid (operation : Identifier) (effects : List Identifier) :
    (script.smallAttempted (script.smallRequested operation effects)).Valid :=
  script.push_valid .attempted none none none (script.smallRequested_valid operation effects) (by simp) (by simp)
    (by decide : 1 < MAX_RECEIPTS)

theorem small_executed {lease : Lease} {verification : Option String} {u w x y : σ} (hEffects : effects.length ≤ 16)
    (hRead : Returns env guard (gateway.readFile firstName) s (some (script.smallRequested operation effects)) s)
    (hProvenance : Returns env guard (gateway.verifyProvenance (smallAction operation effects)
      (smallApproval (smallAction operation effects) approverName) .execute) s verification s)
    (hInbox : requireApprovalInboxVerification (smallApproval (smallAction operation effects) approverName)
      verification = .ok ())
    (hSupports : Returns env guard (gateway.supports operation) s true s)
    (hPlan : Returns env guard (gateway.plan (smallAction operation effects)) s () s)
    (hSimulate : Returns env guard (gateway.simulate (smallAction operation effects)) s () s)
    (hAdmit : Returns env guard (gateway.admitAction (safetyAction (smallAction operation effects)
      (actionHash (smallAction operation effects)))) s ⟨lease, false⟩ t)
    (hAttempt : Returns env guard (gateway.writeFile firstName
      (script.smallAttempted (script.smallRequested operation effects))) t () u)
    (hExecute : Returns env guard (gateway.adapterExecute (smallAction operation effects) lease) u
      (.committed (.string firstName.val) smallResult.toValue) w)
    (hCommit : Returns env guard (gateway.writeFile firstName
      (script.smallCommitted (script.smallRequested operation effects))) w () x)
    (hVerify : Returns env guard (gateway.adapterVerify (smallAction operation effects)) x
      ⟨true, .string firstName.val, smallResult.toValue⟩ x)
    (hProve : Returns env guard (gateway.writeFile firstName
      (script.smallVerified (script.smallRequested operation effects))) x () y) :
    Reaches env guard (gateway.executeAction (smallAction operation effects) smallIdentity smallPolicy) s
      (do
        gateway.complete lease successOutcome
        return script.smallReceipt (script.smallRequested operation effects)) y := by
  have hSettled := script.small_attempted hEffects hRead hProvenance hInbox hSupports hPlan hSimulate hAdmit hAttempt hExecute
  refine hSettled.trans ?_
  exact script.confirm_reaches (script.smallAttempted_valid operation effects) (by decide : 3 < MAX_RECEIPTS)
    optionally_provider optionally_result hCommit hVerify rfl optionally_provider optionally_result hProve

end Scripted

end Small

end GhostApi.Actions
