import GhostApi.Ledger.Timelines

/-!
# The names of governance entries

A governance entry is named by the number of entries that its tenant has, cut
to 128 characters. Callers choose the names of their actions freely, and
rotation takes entries away, so a name may be given twice.
-/

namespace GhostApi.Ledger

open Js Json Validation Effect Effect.Mutation Actions Storage Transition

def governanceName (kind : String) (tenantId : Identifier) (number : Nat) : String :=
  "governance-" ++ kind ++ "-" ++ tenantId.val ++ "-" ++ toString number

theorem governanceActionId_eq {kind : String} {state : ActionLedgerState} {tenantId : Identifier}
    (h : (governanceName kind tenantId ((entriesOf tenantId state.entries).length + 1)).toList.length ≤ 128) :
    governanceActionId kind state tenantId =
      governanceName kind tenantId ((entriesOf tenantId state.entries).length + 1) := by
  change slice (governanceName kind tenantId ((entriesOf tenantId state.entries).length + 1)) 128 = _
  rw [slice, List.take_of_length_le h, String.ofList_toList]

def governanceStages : List LedgerStage := [.retention, .legalHold, .deletionRequest]

/-- A governance entry has another action id than what precedes it. -/
def NamedApart (earlier later : EntryCore) : Prop := later.stage ∈ governanceStages → earlier.actionId ≠ later.actionId

/-- Every governance entry differs in its action id from the entries of its tenant that were there before it. -/
def Distinguished (state : ActionLedgerState) : Prop :=
  ∀ tenantId, (history tenantId state.entries).Pairwise NamedApart

/-- The call gives a name that fits, and no entry of its tenant has a name of the kind with a number above the number of
entries that the tenant has. -/
def Numbered (options : Options) (store : Store) (event : Event) : Prop :=
  ∀ operation kind stage, event.call.operation options = .ok operation → event.call.governance = some (kind, stage) →
    let own := entriesOf operation.tenantId (stateOf store).entries
    (governanceName kind operation.tenantId (own.length + 1)).toList.length ≤ 128 ∧
      ∀ entry ∈ own, ∀ number, entry.actionId.val = governanceName kind operation.tenantId number → number ≤ own.length

/-! ## Steps -/

section Step

variable {tenantId : Identifier} {state state' : ActionLedgerState} {call : Call} {appends : List Append}

theorem evidence_stage (record : ActionLedgerRecord) : ∀ evidence ∈ record.evidence, evidence.stage ∉ governanceStages := by
  intro evidence hEvidence
  rw [ActionLedgerRecord.evidence, List.mem_append, List.mem_append] at hEvidence
  rcases hEvidence with (hHead | hReceipt) | hLast
  · revert evidence
    simp [governanceStages, intentEvidence, identityEvidence, policyEvidence, approvalEvidence, credentialEvidence]
  · obtain ⟨receipt, _, hReceipt⟩ := List.mem_flatMap.mp hReceipt
    have hStage := receiptEvidence_stage receipt evidence hReceipt
    revert hStage
    generalize evidence.stage = stage
    revert stage
    decide
  · rw [List.mem_singleton.mp hLast]
    simp [governanceStages, compensationEvidence]

theorem recorded_apart {record : ActionLedgerRecord} {actionId : Identifier} {actionDigest : Hash}
    (h : List.Forall₂ (fun evidence append => append.Records actionId actionDigest evidence) record.evidence appends) :
    ∀ append ∈ appends, append.core.stage ∉ governanceStages := by
  intro append hAppend
  obtain ⟨i, hi, rfl⟩ := List.getElem_of_mem hAppend
  have hItem : i < record.evidence.length := h.length_eq ▸ hi
  have hStage : appends[i].core.stage = record.evidence[i].stage := (h.get hItem hi).stage
  rw [hStage]
  exact evidence_stage record _ (List.getElem_mem hItem)

theorem history_apart {settings : Settings} {cores : List EntryCore} (h : cores.Pairwise NamedApart)
    (hAppends : ∀ append ∈ appends, append.core.stage ∉ governanceStages) :
    (appends.foldl (replay tenantId settings) cores).Pairwise NamedApart := by
  induction appends generalizing cores with
  | nil => exact h
  | cons append rest ih =>
    rw [List.forall_mem_cons] at hAppends
    refine ih ?_ hAppends.2
    rw [replay, List.pairwise_append]
    refine ⟨?_, ?_, fun _ _ later hLater hStage => ?_⟩
    · split
      · exact h.sublist List.filter_sublist
      · exact h
    · split
      · exact List.pairwise_singleton _ _
      · exact .nil
    · split at hLater
      · exact absurd (List.mem_singleton.mp hLater ▸ hStage) hAppends.1
      · cases hLater

theorem replay_apart {settings : Settings} {cores : List EntryCore} {append : Append} (h : cores.Pairwise NamedApart)
    (hNew : append.core.tenantId = tenantId → ∀ core ∈ cores, core.actionId ≠ append.core.actionId) :
    (replay tenantId settings cores append).Pairwise NamedApart := by
  have hKept : (if append.rotates then cores.filter fun core => ¬settings.Expires append.now core else cores).Sublist
      cores := by
    split
    · exact List.filter_sublist
    · exact List.Sublist.refl _
  rw [replay, List.pairwise_append]
  refine ⟨h.sublist hKept, ?_, fun earlier hEarlier later hLater _ => ?_⟩
  · split
    · exact List.pairwise_singleton _ _
    · exact .nil
  · split at hLater
    · rename_i hOwn
      rw [List.mem_singleton.mp hLater]
      exact hNew hOwn earlier (hKept.subset hEarlier)
    · cases hLater

theorem distinguished_step {clock : Clock} (h : Distinguished state) (hMakes : Makes tenantId state call appends)
    (hEffects : Effects tenantId clock appends state state')
    (hNumbered : ∀ kind stage, call.governance = some (kind, stage) →
      (governanceName kind tenantId ((entriesOf tenantId state.entries).length + 1)).toList.length ≤ 128 ∧
      ∀ entry ∈ entriesOf tenantId state.entries, ∀ number, entry.actionId.val = governanceName kind tenantId number →
        number ≤ (entriesOf tenantId state.entries).length) : Distinguished state' := by
  intro other
  rw [hEffects.histories]
  cases hMakes with
  | nothing => exact h other
  | evidence access record hNew hRecords => exact history_apart (h other) (recorded_apart hRecords)
  | governance hNamed hGovernance =>
    obtain ⟨hFits, hNumbers⟩ := hNumbered _ _ hNamed
    rw [List.foldl_cons, List.foldl_nil]
    refine replay_apart (h other) fun hOwn core hCore hSame => ?_
    have hTenant : tenantId = other := (hEffects.made _ (List.mem_singleton_self _)).own.symm.trans hOwn
    obtain ⟨entry, hEntry, rfl⟩ := List.mem_map.mp hCore
    rw [← hTenant] at hEntry
    have hName : entry.actionId.val =
        governanceName _ tenantId ((entriesOf tenantId state.entries).length + 1) :=
      (congrArg Subtype.val hSame).trans (hGovernance.name.trans (governanceActionId_eq hFits))
    exact Nat.not_succ_le_self _ (hNumbers entry hEntry _ hName)

end Step

def takenName : Identifier := ⟨"governance-retention-acme-7", by decide +kernel⟩

end GhostApi.Ledger
