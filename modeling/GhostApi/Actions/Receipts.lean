import GhostApi.Actions.Types
import GhostApi.Lib.HashChain
import Mathlib.Computability.RegularExpressions

/-!
# Receipts of an action

The record of an action keeps its receipts in a hash chain that starts at a
genesis hash of the action. The words that the states of the receipts can
spell are a finite language; a record whose word ends in verified is closed.
-/

namespace GhostApi.Actions

open Js Validation Effect

def receiptGenesisHash (actionDigest : Hash) : Hash := hashOf ("ghostapi.action.receipt.v1:" ++ actionDigest.val)

def receiptChain : HashChain ActionExecutionReceipt Hash where
  previousHash receipt := receipt.previousReceiptHash
  recordHash := ActionExecutionReceipt.receiptHash

/-! ## Checks of a record -/

def verifyApproval (action : ActionEnvelope) (approval : ActionApproval) (now : Int) (enforceExpiry : Bool) :
    Except JsError Unit := do
  if approval.actionHash ≠ actionHash action then
    throw (refuse "Action approval is not bound to the exact canonical action hash.")
  if approval.approvedBy = action.actor.id ∨ approval.approvedBy = action.actor.workloadId then
    throw (refuse "An action actor cannot approve its own high-risk action.")
  if enforceExpiry ∧ now < timeOf approval.approvedAt then
    throw (refuse "Action approval timestamp is in the future.")
  if enforceExpiry ∧ timeOf approval.expiresAt ≤ now then
    throw (refuse "Action approval has expired.")

def validateReceipt (actionId : Identifier) (actionDigest previousReceiptHash : Hash)
    (receipt : ActionExecutionReceipt) : Except JsError Unit := do
  if receipt.actionId ≠ actionId ∨ receipt.actionHash ≠ actionDigest ∨
      receipt.previousReceiptHash ≠ previousReceiptHash then
    throw (refuse "Action receipt linkage is invalid.")
  if (receipt.status = .committed ∨ receipt.status = .verified) ∧
      (receipt.providerRequestId = none ∨ receipt.result = none) then
    throw (refuse "Committed and verified receipts require a provider result.")
  if receipt.status = .failed ∧ receipt.failure = none then
    throw (refuse "Failed receipt requires a failure classification.")
  if receipt.receiptHash ≠ receipt.toReceiptBase.seal.receiptHash then
    throw (refuse "Action receipt hash is invalid.")

def validateReceipts (actionId : Identifier) (actionDigest : Hash) :
    Hash → List ActionExecutionReceipt → Except JsError Unit
  | _, [] => .ok ()
  | previous, receipt :: rest => do
    validateReceipt actionId actionDigest previous receipt
    validateReceipts actionId actionDigest receipt.receiptHash rest

def validateStoredAction (record : StoredAction) : Except JsError StoredAction := do
  if record.actionHash ≠ actionHash record.envelope then
    throw (refuse "Action record hash does not match its envelope.")
  verifyApproval record.envelope record.approval 0 false
  if record.receipts.length < 1 ∨ MAX_RECEIPTS < record.receipts.length then
    throw (refuse "Action record receipts are invalid.")
  validateReceipts record.envelope.actionId record.actionHash (receiptGenesisHash record.actionHash) record.receipts
  if record.receipts.head?.map (·.status) ≠ some .requested then
    throw (refuse "Action record must begin with a requested receipt.")
  return record

@[irreducible]
def StoredAction.bytes (record : StoredAction) : Nat := (Json.fileText record.toJson).utf8ByteSize

def findLatestReceipt (receipts : List ActionExecutionReceipt) (status : ActionReceiptStatus) :
    Option ActionExecutionReceipt :=
  receipts.reverse.find? (·.status = status)

def StoredAction.push (record : StoredAction) (receipt : ActionExecutionReceipt) : StoredAction :=
  { record with receipts := record.receipts ++ [receipt] }

def appendReceipt (record : StoredAction) (receipt : ActionExecutionReceipt) : Except JsError StoredAction :=
  if MAX_RECEIPTS ≤ record.receipts.length then
    .error (refuse ("Action receipt limit of " ++ toString MAX_RECEIPTS ++ " was reached."))
  else .ok (record.push receipt)

/-! ## Accepted records -/

/-- A receipt that carries what its status asks for, under a hash of its content. -/
structure ActionExecutionReceipt.Valid (actionId : Identifier) (actionDigest : Hash)
    (receipt : ActionExecutionReceipt) : Prop where
  action : receipt.actionId = actionId ∧ receipt.actionHash = actionDigest
  provider : receipt.status = .committed ∨ receipt.status = .verified →
    receipt.providerRequestId ≠ none ∧ receipt.result ≠ none
  classified : receipt.status = .failed → receipt.failure ≠ none
  sealed : receipt.receiptHash = receipt.toReceiptBase.seal.receiptHash

structure StoredAction.Valid (record : StoredAction) : Prop where
  hash : record.actionHash = Actions.actionHash record.envelope
  bound : record.approval.actionHash = record.actionHash
  independent : record.approval.approvedBy ≠ record.envelope.actor.id ∧
    record.approval.approvedBy ≠ record.envelope.actor.workloadId
  size : record.receipts.length ≤ MAX_RECEIPTS
  receipts : ∀ receipt ∈ record.receipts, receipt.Valid record.envelope.actionId record.actionHash
  linked : receiptChain.Linked (receiptGenesisHash record.actionHash) record.receipts
  requested : record.receipts.head?.map (·.status) = some .requested

theorem throw_unless {c : Prop} [Decidable c] {e : JsError} {β : Type} {x : Except JsError β} {b : β} :
    (if c then .error e else x) = .ok b ↔ ¬c ∧ x = .ok b := by
  split <;> simp_all

theorem verifyApproval_eq_ok {action : ActionEnvelope} {approval : ActionApproval} {now : Int} {enforceExpiry : Bool} :
    verifyApproval action approval now enforceExpiry = .ok () ↔ approval.actionHash = actionHash action ∧
      (approval.approvedBy ≠ action.actor.id ∧ approval.approvedBy ≠ action.actor.workloadId) ∧
      (enforceExpiry = true → timeOf approval.approvedAt ≤ now ∧ now < timeOf approval.expiresAt) := by
  have hUnfold : verifyApproval action approval now enforceExpiry = .ok () ↔ ¬approval.actionHash ≠ actionHash action ∧
      ¬(approval.approvedBy = action.actor.id ∨ approval.approvedBy = action.actor.workloadId) ∧
      ¬(enforceExpiry = true ∧ now < timeOf approval.approvedAt) ∧
      ¬(enforceExpiry = true ∧ timeOf approval.expiresAt ≤ now) ∧ True := by
    rw [verifyApproval]
    refine throw_unless.trans (and_congr_right fun _ => throw_unless.trans (and_congr_right fun _ =>
      throw_unless.trans (and_congr_right fun _ => throw_unless.trans (and_congr_right fun _ => ?_))))
    exact iff_of_true rfl trivial
  rw [hUnfold]
  constructor
  · rintro ⟨hHash, hActor, hFuture, hExpired, _⟩
    refine ⟨not_not.mp hHash, not_or.mp hActor, fun hEnforce => ⟨?_, ?_⟩⟩
    · exact not_lt.mp fun h => hFuture ⟨hEnforce, h⟩
    · exact not_le.mp fun h => hExpired ⟨hEnforce, h⟩
  · rintro ⟨hHash, hActor, hTimes⟩
    refine ⟨not_not.mpr hHash, not_or.mpr hActor, ?_, ?_, trivial⟩
    · rintro ⟨hEnforce, h⟩
      exact absurd (hTimes hEnforce).1 (not_le.mpr h)
    · rintro ⟨hEnforce, h⟩
      exact absurd (hTimes hEnforce).2 (not_lt.mpr h)

theorem validateReceipt_eq_ok {actionId : Identifier} {actionDigest previous : Hash}
    {receipt : ActionExecutionReceipt} : validateReceipt actionId actionDigest previous receipt = .ok () ↔
      receipt.Valid actionId actionDigest ∧ receipt.previousReceiptHash = previous := by
  have hUnfold : validateReceipt actionId actionDigest previous receipt = .ok () ↔
      ¬(receipt.actionId ≠ actionId ∨ receipt.actionHash ≠ actionDigest ∨ receipt.previousReceiptHash ≠ previous) ∧
      ¬((receipt.status = .committed ∨ receipt.status = .verified) ∧
        (receipt.providerRequestId = none ∨ receipt.result = none)) ∧
      ¬(receipt.status = .failed ∧ receipt.failure = none) ∧
      ¬receipt.receiptHash ≠ receipt.toReceiptBase.seal.receiptHash ∧ True := by
    rw [validateReceipt]
    refine throw_unless.trans (and_congr_right fun _ => throw_unless.trans (and_congr_right fun _ =>
      throw_unless.trans (and_congr_right fun _ => throw_unless.trans (and_congr_right fun _ => ?_))))
    exact iff_of_true rfl trivial
  rw [hUnfold]
  constructor
  · rintro ⟨hLink, hProvider, hFailure, hHash, _⟩
    obtain ⟨hId, hDigest, hPrevious⟩ : _ ∧ _ ∧ _ := by simpa using hLink
    refine ⟨⟨⟨hId, hDigest⟩, fun h => ?_, fun h hNone => hFailure ⟨h, hNone⟩, not_not.mp hHash⟩, hPrevious⟩
    exact not_or.mp fun hNone => hProvider ⟨h, hNone⟩
  · rintro ⟨⟨⟨hId, hDigest⟩, hProvider, hFailure, hHash⟩, hPrevious⟩
    refine ⟨by simp [hId, hDigest, hPrevious], ?_, ?_, not_not.mpr hHash, trivial⟩
    · rintro ⟨h, hNone⟩
      exact not_or.mpr (hProvider h) hNone
    · rintro ⟨h, hNone⟩
      exact hFailure h hNone

theorem validateReceipts_eq_ok {actionId : Identifier} {actionDigest previous : Hash}
    {receipts : List ActionExecutionReceipt} : validateReceipts actionId actionDigest previous receipts = .ok () ↔
      (∀ receipt ∈ receipts, receipt.Valid actionId actionDigest) ∧ receiptChain.Linked previous receipts := by
  induction receipts generalizing previous with
  | nil => simp [validateReceipts, HashChain.Linked]
  | cons receipt rest ih =>
    rw [validateReceipts, bind_unit_eq_ok, validateReceipt_eq_ok, ih, List.forall_mem_cons, HashChain.Linked]
    change _ ↔ _ ∧ receipt.previousReceiptHash = previous ∧ receiptChain.Linked receipt.receiptHash rest
    tauto

theorem validateStoredAction_eq_ok {record record' : StoredAction} :
    validateStoredAction record = .ok record' ↔ record.Valid ∧ record = record' := by
  have hUnfold : validateStoredAction record = .ok record' ↔ ¬record.actionHash ≠ actionHash record.envelope ∧
      verifyApproval record.envelope record.approval 0 false = .ok () ∧
      ¬(record.receipts.length < 1 ∨ MAX_RECEIPTS < record.receipts.length) ∧
      validateReceipts record.envelope.actionId record.actionHash (receiptGenesisHash record.actionHash)
        record.receipts = .ok () ∧
      ¬record.receipts.head?.map (·.status) ≠ some .requested ∧ record = record' := by
    rw [validateStoredAction]
    refine throw_unless.trans (and_congr_right fun _ => bind_unit_eq_ok.trans (and_congr_right fun _ =>
      throw_unless.trans (and_congr_right fun _ => bind_unit_eq_ok.trans (and_congr_right fun _ =>
      throw_unless.trans (and_congr_right fun _ => ?_)))))
    simp [pure, Except.pure]
  rw [hUnfold, verifyApproval_eq_ok, validateReceipts_eq_ok]
  constructor
  · rintro ⟨hHash, ⟨hBound, hIndependent, _⟩, hSize, ⟨hReceipts, hLinked⟩, hRequested, hSame⟩
    have hDigest := not_not.mp hHash
    refine ⟨⟨hDigest, hBound.trans hDigest.symm, hIndependent, ?_, hReceipts, hLinked, not_not.mp hRequested⟩, hSame⟩
    omega
  · rintro ⟨h, hSame⟩
    refine ⟨not_not.mpr h.hash, ⟨h.bound.trans h.hash, h.independent, by simp⟩, ?_, ⟨h.receipts, h.linked⟩,
      not_not.mpr h.requested, hSame⟩
    rintro (hEmpty | hLarge)
    · have hRequested := h.requested
      rw [List.length_eq_zero_iff.mp (Nat.lt_one_iff.mp hEmpty)] at hRequested
      cases hRequested
    · exact absurd h.size (Nat.not_le.mpr hLarge)

/-! ## Status words -/

def StoredAction.word (record : StoredAction) : List ActionReceiptStatus := record.receipts.map (·.status)

@[simp]
theorem StoredAction.word_push (record : StoredAction) (receipt : ActionExecutionReceipt) :
    (record.push receipt).word = record.word ++ [receipt.status] := List.map_append

section Language

open RegularExpression

def maybe (part : RegularExpression ActionReceiptStatus) : RegularExpression ActionReceiptStatus := 1 + part

/-- requested (attempted failed? (committed failed? verified?)?)? -/
def receiptLanguage : RegularExpression ActionReceiptStatus :=
  char .requested * maybe (char .attempted * maybe (char .failed) *
    maybe (char .committed * maybe (char .failed) * maybe (char .verified)))

end Language

def receiptWords : List (List ActionReceiptStatus) :=
  let outcomes : List (List ActionReceiptStatus) :=
    [[], [.committed], [.committed, .failed], [.committed, .verified], [.committed, .failed, .verified]]
  [.requested] :: outcomes.map ([.requested, .attempted] ++ ·) ++
    outcomes.map ([.requested, .attempted, .failed] ++ ·)

theorem mem_receiptLanguage {word : List ActionReceiptStatus} (h : word ∈ receiptWords) :
    word ∈ receiptLanguage.matches' := by
  have hAll : ∀ word ∈ receiptWords, receiptLanguage.rmatch word = true := by decide
  exact (RegularExpression.rmatch_iff_matches' _ _).mp (hAll word h)

theorem length_of_mem_receiptWords {word : List ActionReceiptStatus} (h : word ∈ receiptWords) : word.length ≤ 6 := by
  have hAll : ∀ word ∈ receiptWords, word.length ≤ 6 := by decide
  exact hAll word h

theorem eq_requested_of_mem {word : List ActionReceiptStatus} (h : word ∈ receiptWords)
    (hAttempted : .attempted ∉ word) : word = [.requested] := by
  have hAll : ∀ word ∈ receiptWords, .attempted ∉ word → word = [.requested] := by decide
  exact hAll word h hAttempted

theorem attempted_of_committed {word : List ActionReceiptStatus} (h : word ∈ receiptWords)
    (hCommitted : .committed ∈ word) : .attempted ∈ word := by
  have hAll : ∀ word ∈ receiptWords, .committed ∈ word → .attempted ∈ word := by decide
  exact hAll word h hCommitted

theorem attempted_of_verified {word : List ActionReceiptStatus} (h : word ∈ receiptWords)
    (hVerified : .verified ∈ word) : .attempted ∈ word := by
  have hAll : ∀ word ∈ receiptWords, .verified ∈ word → .attempted ∈ word := by decide
  exact hAll word h hVerified

theorem append_verified_mem {word : List ActionReceiptStatus} (h : word ∈ receiptWords)
    (hCommitted : .committed ∈ word) (hVerified : .verified ∉ word) : word ++ [.verified] ∈ receiptWords := by
  have hAll : ∀ word ∈ receiptWords, .committed ∈ word → .verified ∉ word → word ++ [.verified] ∈ receiptWords := by
    decide
  exact hAll word h hCommitted hVerified

theorem append_committed_verified_mem {word : List ActionReceiptStatus} (h : word ∈ receiptWords)
    (hAttempted : .attempted ∈ word) (hCommitted : .committed ∉ word) (hVerified : .verified ∉ word) :
    word ++ [.committed] ++ [.verified] ∈ receiptWords := by
  have hAll : ∀ word ∈ receiptWords, .attempted ∈ word → .committed ∉ word → .verified ∉ word →
      word ++ [.committed] ++ [.verified] ∈ receiptWords := by decide
  exact hAll word h hAttempted hCommitted hVerified

theorem eq_of_verified_mem {word before after : List ActionReceiptStatus} (h : word ∈ receiptWords)
    (hSplit : word = before ++ .verified :: after) : after = [] := by
  have hAll : ∀ word ∈ receiptWords, .verified ∉ word.dropLast := by decide
  have hLast := hAll word h
  cases after with
  | nil => rfl
  | cons next rest =>
    refine absurd ?_ hLast
    rw [hSplit, List.dropLast_append_of_ne_nil (List.cons_ne_nil _ _)]
    simp

/-! ## The latest receipt -/

theorem findLatestReceipt_eq_none {record : StoredAction} {status : ActionReceiptStatus} :
    findLatestReceipt record.receipts status = none ↔ status ∉ record.word := by
  simp [findLatestReceipt, StoredAction.word]

theorem findLatestReceipt_mem {record : StoredAction} {status : ActionReceiptStatus}
    {receipt : ActionExecutionReceipt} (h : findLatestReceipt record.receipts status = some receipt) :
    status ∈ record.word := by
  by_contra hAbsent
  rw [findLatestReceipt_eq_none.mpr hAbsent] at h
  cases h

theorem findLatestReceipt_status {record : StoredAction} {status : ActionReceiptStatus}
    {receipt : ActionExecutionReceipt} (h : findLatestReceipt record.receipts status = some receipt) :
    receipt.status = status := by simpa using List.find?_some h

theorem getLast_of_findLatest_verified {record : StoredAction} {receipt : ActionExecutionReceipt}
    (hWord : record.word ∈ receiptWords) (h : findLatestReceipt record.receipts .verified = some receipt) :
    record.receipts.getLast? = some receipt := by
  obtain ⟨before, after, hSplit⟩ := List.append_of_mem (findLatestReceipt_mem h)
  obtain rfl := eq_of_verified_mem hWord hSplit
  rcases List.eq_nil_or_concat record.receipts with hNil | ⟨init, last, hConcat⟩
  · rw [hNil] at h
    cases h
  · rw [List.concat_eq_append] at hConcat
    have hStatus : last.status = .verified := by
      rw [StoredAction.word, hConcat, List.map_append] at hSplit
      exact List.singleton_inj.mp (List.append_inj' hSplit rfl).2
    rw [findLatestReceipt, hConcat, List.reverse_append, List.reverse_singleton, List.singleton_append,
      List.find?_cons_of_pos (by simpa using hStatus)] at h
    rw [hConcat, List.getLast?_append_of_ne_nil _ (by simp), List.getLast?_singleton]
    exact h

theorem appendReceipt_ok {record record' : StoredAction} {receipt : ActionExecutionReceipt}
    (h : appendReceipt record receipt = .ok record') : record' = record.push receipt := by
  obtain ⟨_, h⟩ := ite_error_eq_ok h
  cases h
  rfl

/-! ## Records that grow -/

def StoredAction.Extends (record record' : StoredAction) : Prop :=
  ∃ added, record' = { record with receipts := record.receipts ++ added }

theorem StoredAction.extends_refl (record : StoredAction) : record.Extends record := ⟨[], by simp⟩

theorem StoredAction.Extends.push {record record' : StoredAction} (h : record.Extends record')
    (receipt : ActionExecutionReceipt) : record.Extends (record'.push receipt) := by
  obtain ⟨added, rfl⟩ := h
  exact ⟨added ++ [receipt], by simp [StoredAction.push]⟩

theorem StoredAction.Extends.mem_word {record record' : StoredAction} (h : record.Extends record')
    {status : ActionReceiptStatus} (hStatus : status ∈ record.word) : status ∈ record'.word := by
  obtain ⟨added, rfl⟩ := h
  rw [StoredAction.word, List.map_append]
  exact List.mem_append_left _ hStatus

theorem StoredAction.Extends.envelope_eq {record record' : StoredAction} (h : record.Extends record') :
    record'.envelope = record.envelope ∧ record'.actionHash = record.actionHash := by
  obtain ⟨added, rfl⟩ := h
  exact ⟨rfl, rfl⟩

end GhostApi.Actions
