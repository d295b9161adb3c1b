import GhostApi.Actions.Receipts
import GhostApi.Storage.RecordSize

/-!
# Bytes of a stored action

A crude bound, good enough to see that a record with a few receipts can be
read back.
-/

namespace GhostApi.Actions

open Js Json Validation Safety

variable {depth : Nat}

theorem optional_members (depth : Nat) (key : String) (value : Option Json) (bound : Nat) (hKey : plainName key = true)
    (hValue : ∀ v, value = some v → Within (depth + 1) bound v) :
    ∃ total ≤ bound + margin depth, Members depth total (Json.optional key value) := by
  cases value with
  | none => exact ⟨0, Nat.zero_le _, .nil⟩
  | some v => exact ⟨0 + (bound + margin depth), by omega, .cons hKey (hValue v rfl) .nil⟩

theorem envelope_within {action : ActionEnvelope} (hDepth : depth ≤ 3) (hEffects : action.expectedSideEffects.length ≤ 16)
    (hVersion : action.policy.version.val ≤ MAX_SAFE_INTEGER) : Within depth 42000 action.toJson := by
  have hMargin : margin depth ≤ 286 := margin_le (by omega)
  have hInner : margin (depth + 1) ≤ 286 := margin_le (by omega)
  have hType : plainName action.actor.type.text = true := by cases action.actor.type <;> rfl
  have hRisk : plainName action.riskClass.text = true := by cases action.riskClass <;> rfl
  have hReversible : plainName action.reversibility.text = true := by cases action.reversibility <;> rfl
  have hList : Within (depth + 1) (4 + 8 * (depth + 1) + _ * (8 * (depth + 1) + 10 + 1026))
      (.array (action.expectedSideEffects.map fun effect => .string effect.val)) :=
    array_within (List.forall_mem_map.mpr fun effect _ => id_within effect)
  rw [List.length_map] at hList
  have hAll : action.expectedSideEffects.length * (8 * (depth + 1) + 10 + 1026) ≤ 16 * 1068 :=
    Nat.mul_le_mul hEffects (by omega)
  refine (record_within (.cons rfl (number_within (n := 1) (by decide)) (.cons rfl (constant_within rfl)
    (.cons rfl (id_within _) (.cons rfl (id_within _)
    (.cons rfl (record_within (.cons rfl (id_within _) (.cons rfl (id_within _)
      (.cons rfl (constant_within hType) .nil))))
    (.cons rfl (record_within (.cons rfl (id_within _) (.cons rfl (constant_within rfl) .nil)))
    (.cons rfl (constant_within rfl) (.cons rfl (id_within _)
    (.cons rfl (record_within (.cons rfl (constant_within rfl) (.cons rfl (id_within _) .nil)))
    (.cons rfl (record_within (.cons rfl (id_within _) .nil)) (.cons rfl hList
    (.cons rfl (constant_within hRisk) (.cons rfl (constant_within hReversible)
    (.cons rfl (record_within (.cons rfl (number_within hVersion) (.cons rfl (hash_within _) .nil)))
    (.cons rfl (record_within (.cons rfl (hash_within _) .nil))
    (.cons rfl (timestamp_within action.expiresAt.property)
    (.cons rfl (id_within _) .nil)))))))))))))))))).mono ?_
  omega

theorem signature_within (signature : { s : String // isSignature s = true }) :
    Within depth 690 (.string signature.val) := by
  have hSignature := signature.property
  rw [isSignature, Bool.and_eq_true, beq_iff_eq, List.all_eq_true] at hSignature
  refine string_within (fun c hc => ?_) (Nat.le_of_eq hSignature.1)
  have hChar := hSignature.2 c hc
  simp only [isSignatureChar, isAlnum, isDigit, isLower, isUpper, Bool.or_eq_true, Bool.and_eq_true,
    decide_eq_true_eq, beq_iff_eq] at hChar
  rw [isControl, decide_eq_false_iff_not, UInt32.not_lt]
  rcases hChar with ((((⟨hLow, _⟩ | ⟨hLow, _⟩) | ⟨hLow, _⟩) | rfl) | rfl)
  · exact UInt32.le_trans (by decide : 0x20 ≤ '0'.val) hLow
  · exact UInt32.le_trans (by decide : 0x20 ≤ 'a'.val) hLow
  · exact UInt32.le_trans (by decide : 0x20 ≤ 'A'.val) hLow
  · decide
  · decide

theorem approval_within (approval : ActionApproval) : Within 1 13000 approval.toJson := by
  have hMargin : margin 1 ≤ 286 := margin_le (by decide)
  have hInner : margin (1 + 1) ≤ 286 := margin_le (by decide)
  refine (record_within (.cons rfl (number_within (n := 1) (by decide)) (.cons rfl (constant_within rfl)
    (.cons rfl (id_within _) (.cons rfl (hash_within _) (.cons rfl (id_within _)
    (.cons rfl (timestamp_within approval.approvedAt.property)
    (.cons rfl (timestamp_within approval.expiresAt.property) (.cons rfl (id_within _)
    (.cons rfl (record_within (.cons rfl (constant_within rfl) (.cons rfl (id_within _)
      (.cons rfl (signature_within _) .nil)))) .nil)))))))))).mono ?_
  omega

theorem result_within (result : ActionResult) : Within 3 5000 result.toJson := by
  have hMargin : margin 3 ≤ 286 := margin_le (by decide)
  refine (record_within (.cons rfl (id_within _) (.cons rfl (id_within _) (.cons rfl (id_within _) .nil)))).mono ?_
  omega

theorem failure_within (failure : ActionFailure) : Within 3 2000 failure.toJson := by
  have hMargin : margin 3 ≤ 286 := margin_le (by decide)
  have hCode : plainName failure.code = true := by cases failure <;> rfl
  refine (record_within (.cons rfl (constant_within hCode) (.cons rfl (bool_within false) .nil))).mono ?_
  omega

theorem receipt_within (receipt : ActionExecutionReceipt) : Within 2 15000 receipt.toJson := by
  have hMargin : margin 2 ≤ 286 := margin_le (by decide)
  have hStatus : plainName receipt.status.text = true := by cases receipt.status <;> rfl
  obtain ⟨t1, h1, m1⟩ := optional_members 2 "providerRequestId"
    (receipt.providerRequestId.map fun id => .string id.val) 1026 rfl (by
      intro v hv
      obtain ⟨id, _, rfl⟩ := Option.map_eq_some_iff.mp hv
      exact id_within id)
  obtain ⟨t2, h2, m2⟩ := optional_members 2 "result"
    (receipt.result.map ActionResult.toJson) 5000 rfl (by
      intro v hv
      obtain ⟨result, _, rfl⟩ := Option.map_eq_some_iff.mp hv
      exact result_within result)
  obtain ⟨t3, h3, m3⟩ := optional_members 2 "failure"
    (receipt.failure.map ActionFailure.toJson) 2000 rfl (by
      intro v hv
      obtain ⟨failure, _, rfl⟩ := Option.map_eq_some_iff.mp hv
      exact failure_within failure)
  refine (record_within (Members.append (Members.append (Members.append (Members.append (Members.append
    (.cons rfl (id_within _) (.cons rfl (id_within _) (.cons rfl (hash_within _) (.cons rfl (constant_within hStatus)
      (.cons rfl (timestamp_within receipt.timestamp.property) .nil))))) m1) m2) m3)
    (.cons rfl (hash_within receipt.previousReceiptHash) .nil)) (.cons rfl (hash_within receipt.receiptHash) .nil))).mono ?_
  omega

theorem StoredAction.bytes_le {record : StoredAction} (hReceipts : record.receipts.length ≤ 4)
    (hEffects : record.envelope.expectedSideEffects.length ≤ 16)
    (hVersion : record.envelope.policy.version.val ≤ MAX_SAFE_INTEGER) : record.bytes ≤ MAX_ACTION_BYTES := by
  have hMargin : margin 0 ≤ 286 := margin_le (by decide)
  have hList : Within 1 (4 + 8 * 1 + _ * (8 * 1 + 10 + 15000))
      (.array (record.receipts.map ActionExecutionReceipt.toJson)) :=
    array_within (List.forall_mem_map.mpr fun receipt _ => receipt_within receipt)
  rw [List.length_map] at hList
  have hAll : _ * (8 * 1 + 10 + 15000) ≤ 4 * (8 * 1 + 10 + 15000) := Nat.mul_le_mul_right _ hReceipts
  have hRecord : Within 0 _ record.toJson := record_within (.cons rfl (number_within (n := 1) (by decide))
    (.cons rfl (constant_within rfl) (.cons rfl (envelope_within (by decide) hEffects hVersion)
    (.cons rfl (hash_within _) (.cons rfl (approval_within _) (.cons rfl hList .nil))))))
  have hLine : "\n".utf8ByteSize = 1 := by decide
  rw [StoredAction.bytes, fileText, String.utf8ByteSize_append, hLine, MAX_ACTION_BYTES]
  exact Nat.le_trans (Nat.add_le_add_right hRecord 1) (by omega)

end GhostApi.Actions
