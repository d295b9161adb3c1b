import GhostApi.Actions.Size
import GhostApi.Approvals.Requests

/-!
# Bytes of a small inbox

A crude bound, good enough to see that an inbox with one request can be read
back.
-/

namespace GhostApi.Approvals

open Js Json Validation Storage
open Actions (ActionEnvelope)

variable {action : ActionEnvelope} {policy : ApprovalPolicy} {context : ApprovalContext} {id : Identifier} {now : Int}

theorem plain_within {depth : Nat} {s : String} (hControl : (s.toList.all fun c => !isControl c) = true)
    (hLength : s.toList.length ≤ 60) : Within depth 482 (.string s) := by
  refine string_within (fun c hc => ?_) hLength
  simpa using List.all_eq_true.mp hControl c hc

theorem target_within {depth : Nat} (worldId : Identifier) :
    Within depth 1154 (.string ("synthetic-world/" ++ worldId.val)) := by
  obtain ⟨hChars, _, hLength⟩ := identifier_chars worldId.property
  have hTarget : ("synthetic-world/".toList.all fun c => !isControl c) = true := by decide
  have hPrefix : "synthetic-world/".toList.length = 16 := by decide
  refine string_within (fun c hc => ?_) (?_ : _ ≤ 144)
  · rw [String.toList_append, List.mem_append] at hc
    rcases hc with hc | hc
    · simpa using List.all_eq_true.mp hTarget c hc
    · exact isControl_eq_false (hChars c hc)
  · rw [String.toList_append, List.length_append]
    omega

theorem context_within (context : ApprovalContext) : Within 3 2000 context.toJson := by
  have hMargin : margin 3 ≤ 286 := margin_le (by decide)
  obtain ⟨total, hTotal, hMembers⟩ := Actions.optional_members 3 "amountMinor"
    (context.amountMinor.map fun amount => .number amount.val) 64 rfl (by
      intro v hv
      obtain ⟨amount, _, rfl⟩ := Option.map_eq_some_iff.mp hv
      exact number_within amount.property)
  refine (record_within (Members.append (.cons rfl (number_within (context.confidence.property.trans (by decide))) .nil)
    hMembers)).mono ?_
  omega

theorem policyRecord_within (policy : ApprovalPolicyRecord) : Within 3 4000 policy.toJson := by
  have hMargin : margin 3 ≤ 286 := margin_le (by decide)
  have hRequired : policy.requiredApprovals.val ≤ MAX_SAFE_INTEGER := by
    rcases policy.requiredApprovals.property with h | h <;> rw [h] <;> decide
  refine (record_within (.cons rfl (id_within _) (.cons rfl (number_within (policy.version.property.2.trans (by decide)))
    (.cons rfl (hash_within _) (.cons rfl (number_within hRequired) .nil))))).mono ?_
  omega

theorem impact_within (impact : ApprovalImpact) (hAmount : ∀ amount ∈ impact.amountMinor, amount ≤ MAX_SAFE_INTEGER) :
    Within 4 2000 impact.toJson := by
  have hMargin : margin 4 ≤ 286 := margin_le (by decide)
  have hKnown : Within 5 64 ((impact.amountMinor.map fun amount : Nat => Json.number amount).getD .null) := by
    cases hCase : impact.amountMinor with
    | none =>
      rw [Option.map_none, Option.getD_none, Within, pretty]
      decide
    | some amount => exact number_within (hAmount amount hCase)
  refine (record_within (.cons rfl hKnown (.cons rfl (bool_within _) (.cons rfl (bool_within _) .nil)))).mono ?_
  omega

theorem display_within (hEffects : action.expectedSideEffects.length ≤ 16) :
    Within 3 30000 (display action context (approval policy context).reasons).toJson := by
  have hMargin : margin 3 ≤ 286 := margin_le (by decide)
  have hInner : margin (3 + 1) ≤ 286 := margin_le (by decide)
  have hInmost : margin (3 + 1 + 1) ≤ 294 := by decide
  have hIntent : Within 4 482 (.string "Update a local synthetic subscription failure workflow.") :=
    plain_within (by decide) (by decide)
  have hSummary : Within 5 482 (.string "Synthetic adapter preflight found the local target world.") :=
    plain_within (by decide) (by decide)
  have hReversible : plainName action.reversibility.text = true := by cases action.reversibility <;> rfl
  have hList : Within 4 (4 + 8 * 4 + _ * (8 * 4 + 10 + 1026))
      (.array (action.expectedSideEffects.map fun effect => .string effect.val)) :=
    array_within (List.forall_mem_map.mpr fun effect _ => id_within effect)
  rw [List.length_map] at hList
  have hAll : action.expectedSideEffects.length * (8 * 4 + 10 + 1026) ≤ 16 * 1068 := Nat.mul_le_mul_right _ hEffects
  have hReason : Within 5 482 (.string (approvalReason (requiredApprovals policy context .update))) := by
    rw [approvalReason]
    split
    · exact plain_within (by decide) (by decide)
    · exact plain_within (by decide) (by decide)
  have hReasons : Within 4 (4 + 8 * 4 + 1 * (8 * 4 + 10 + 482))
      (.array [.string (approvalReason (requiredApprovals policy context .update))]) :=
    array_within (List.forall_mem_singleton.mpr hReason)
  have hImpact : Within 4 2000 (display action context (approval policy context).reasons).impact.toJson :=
    impact_within _ fun amount hAmount => by
      obtain ⟨bounded, _, rfl⟩ := Option.map_eq_some_iff.mp hAmount
      exact bounded.property
  refine (record_within (.cons rfl hIntent (.cons rfl (target_within _)
    (.cons rfl (record_within (.cons rfl (record_within .nil) (.cons rfl
      (record_within (.cons rfl (id_within _) .nil)) .nil)))
    (.cons rfl hList (.cons rfl (constant_within hReversible) (.cons rfl hImpact (.cons rfl hReasons
    (.cons rfl (hash_within _) (.cons rfl (record_within (.cons rfl (constant_within rfl)
      (.cons rfl hSummary .nil))) .nil)))))))))).mono ?_
  omega

theorem newRequest_within (hEffects : action.expectedSideEffects.length ≤ 16)
    (hVersion : action.policy.version.val ≤ MAX_SAFE_INTEGER) (hTimely : (newRequest action policy context id now).Timely) :
    Within 2 100000 (newRequest action policy context id now).toJson := by
  have hMargin : margin 2 ≤ 286 := margin_le (by decide)
  have hRisk : plainName (newRequest action policy context id now).risk.text = true := (by decide : plainName "update" = true)
  have hStatus : plainName (newRequest action policy context id now).status.text = true :=
    (by decide : plainName "pending" = true)
  have hDecisions : Within 3 (4 + 8 * 3 + 0 * (8 * 3 + 10 + 0)) (.array []) :=
    array_within fun _ hItem => absurd hItem List.not_mem_nil
  refine (record_within (.cons rfl (id_within _) (.cons rfl (Actions.envelope_within (by decide) hEffects hVersion)
    (.cons rfl (hash_within _) (.cons rfl (constant_within hRisk) (.cons rfl (context_within _)
    (.cons rfl (policyRecord_within _) (.cons rfl (display_within hEffects) (.cons rfl (constant_within hStatus)
    (.cons rfl (timestamp_within hTimely.created) (.cons rfl (timestamp_within hTimely.expires)
    (.cons rfl (timestamp_within hTimely.escalates)
    (.cons rfl hDecisions .nil))))))))))))).mono ?_
  omega

theorem audit_within {record : ApprovalAuditRecord} (h : record.Sealed) : Within 2 11000 record.toJson := by
  have hMargin : margin 2 ≤ 286 := margin_le (by decide)
  have hSequence : record.sequence ≤ MAX_SAFE_INTEGER := h.sequence.2.trans (by decide)
  obtain ⟨total, hTotal, hMembers⟩ := Actions.optional_members 2 "actionReceiptHash"
    (record.actionReceiptHash.map fun hash => .string hash.val) 514 rfl (by
      intro v hv
      obtain ⟨hash, _, rfl⟩ := Option.map_eq_some_iff.mp hv
      exact hash_within hash)
  refine (record_within (Members.append (Members.append (Members.append
    (.cons rfl (number_within hSequence) (.cons rfl (text_within _) (.cons rfl (id_within _)
      (.cons rfl (hash_within _) .nil)))) hMembers)
    (.cons rfl (id_within _) (.cons rfl (timestamp_within h.timestamp) (.cons rfl (hash_within _) .nil))))
    (.cons rfl (hash_within _) .nil))).mono ?_
  omega

theorem first_readable (hEffects : action.expectedSideEffects.length ≤ 16)
    (hVersion : action.policy.version.val ≤ MAX_SAFE_INTEGER)
    (hValid : Valid (withRequest (newRequest action policy context id now) now emptyState)) :
    read (some (withRequest (newRequest action policy context id now) now emptyState)) =
      .ok (withRequest (newRequest action policy context id now) now emptyState) := by
  have hMargin : margin 0 ≤ 286 := margin_le (by decide)
  have hTimely := (hValid.requests _ (List.mem_append_right _ (List.mem_singleton_self _))).timely
  have hRequests : Within 1 (12 + 1 * (18 + 100000)) (.array [(newRequest action policy context id now).toJson]) :=
    array_within (List.forall_mem_singleton.mpr (newRequest_within hEffects hVersion hTimely))
  have hAudit : Within 1 (12 + _ * (18 + 11000)) (.array
      ((withRequest (newRequest action policy context id now) now emptyState).audit.map ApprovalAuditRecord.toJson)) :=
    array_within (List.forall_mem_map.mpr fun record hRecord => audit_within (hValid.records record hRecord))
  have hOne : (withRequest (newRequest action policy context id now) now emptyState).audit.length = 1 := rfl
  rw [List.length_map, hOne] at hAudit
  have hState : Within 0 _ (withRequest (newRequest action policy context id now) now emptyState).toJson :=
    record_within (.cons rfl (number_within (n := 1) (by decide)) (.cons rfl hRequests
      (.cons rfl (hash_within _) (.cons rfl hAudit .nil))))
  have hLine : "\n".utf8ByteSize = 1 := by decide
  have hMax : MAX_STORE_BYTES = 1048576 := rfl
  refine (read_stored hValid).mpr ?_
  rw [StoreFormat.bytes, fileText, String.utf8ByteSize_append, hLine]
  exact Nat.le_trans (Nat.add_le_add_right hState 1) (by omega)

end GhostApi.Approvals
