import GhostApi.Credentials.Uses
import GhostApi.Credentials.Wipe

/-!
# At most one execution for each grant

Any number of calls run at the same time, each may stop for good between two
of its calls. A use owns the receipt that its locked start added, until it has
been completed; nobody else changes it.
-/

namespace GhostApi.Credentials

open Js Validation Storage Effect Effect.Program Table

/-! ## The protocol of a use -/

inductive Phase
  | idle
  | holding (receiptId grantId : Identifier)
  | used (receiptId grantId : Identifier)

def Phase.receipt : Phase → Option Identifier
  | idle => none
  | holding receiptId _ => some receiptId
  | used receiptId _ => some receiptId

/-- The parts that neither touch a receipt nor call the executor. -/
def Part.Neutral : Part → Prop
  | start _ _ _ | execute _ _ _ | complete _ _ => False
  | _ => True

/-- A receipt fails only before the executor is called, and is executed or unknown only after it. -/
def protocol : Protocol Phase Part Part.Answer JsError where
  allowed
    | .idle, .start _ _ _ => True
    | .holding _ grantId, .execute grant _ _ => grant.id = grantId
    | .holding receiptId _, .complete id completion => id = receiptId ∧ completion = .failed
    | .used receiptId _, .complete id completion => id = receiptId ∧ completion ≠ .failed
    | _, part => part.Neutral
  next
    | _, .start _ _ _, .ok (.fresh grant _ receipt) => .holding receipt.id grant.id
    | .holding receiptId grantId, .execute _ _ _, _ => .used receiptId grantId
    | .holding _ _, .complete _ _, _ => .idle
    | phase, _, _ => phase

theorem allowed_of_neutral {part : Part} (h : part.Neutral) (phase : Phase) : protocol.allowed phase part := by
  cases part <;> cases phase <;> trivial

theorem next_of_neutral {part : Part} (h : part.Neutral) (phase : Phase) (reply : Except JsError part.Answer) :
    protocol.next phase part reply = phase := by
  cases part <;> cases phase <;> first | rfl | exact h.elim

abbrev At {α : Type} (phase : Phase) : Except JsError α → Phase → Prop := fun _ after => after = phase

theorem ask_follows {part : Part} (h : part.Neutral) (phase : Phase) :
    (ask part).Follows protocol (At phase) phase :=
  follows_perform (allowed_of_neutral h phase) fun reply => next_of_neutral h phase reply

theorem neutral_bind {part : Part} {β : Type} {f : part.Answer → Call β} {Q : Except JsError β → Phase → Prop}
    {phase : Phase} (h : part.Neutral) (hError : ∀ e, Q (.error e) phase)
    (hNext : ∀ answer, (f answer).Follows protocol Q phase) : (ask part >>= f).Follows protocol Q phase := by
  refine (ask_follows h phase).bind ?_ ?_
  · rintro e _ rfl
    exact hError e
  · rintro answer _ rfl
    exact hNext answer

theorem authenticateWorkload_follows (identity : JsValue) (phase : Phase) :
    (authenticateWorkload identity).Follows protocol (At phase) phase :=
  neutral_bind (by trivial) (fun _ => rfl) fun _ => neutral_bind (by trivial) (fun _ => rfl) fun _ => rfl

theorem assertExecutionActive_follows (grant : CredentialGrant) (identity : JsValue) (phase : Phase) :
    (assertExecutionActive grant identity).Follows protocol (At phase) phase := by
  refine (authenticateWorkload_follows identity phase).bind (fun _ _ h => h) ?_
  rintro workload _ rfl
  exact neutral_bind (by trivial) (fun _ => rfl) fun _ => ask_follows (by trivial) _

theorem obtainSecret_follows (grant : CredentialGrant) (credential : CredentialMetadata) (identity : JsValue)
    (phase : Phase) : (obtainSecret grant credential identity).Follows protocol (At phase) phase := by
  refine neutral_bind (by trivial) (fun _ => rfl) fun reply => ?_
  cases reply with
  | other => rfl
  | buffer secret byteLength =>
    dsimp only [throwIf]
    split
    · rfl
    · exact (assertExecutionActive_follows grant identity phase).bind (fun _ _ h => h) fun _ _ h => h

theorem notStarted_follows (receipt : CredentialUseReceipt) (grantId : Identifier) :
    (notStarted receipt).Follows protocol (fun result _ => ∃ e, result = .error e) (.holding receipt.id grantId) := by
  refine Follows.bind (R := fun _ _ => True) (follows_perform ⟨rfl, rfl⟩ fun _ => trivial) (fun e _ _ => ⟨e, rfl⟩) fun _ _ _ => ?_
  exact ⟨_, rfl⟩

theorem complete_follows {receiptId grantId : Identifier} {completion : Completion} (h : completion ≠ .failed) :
    (ask (.complete receiptId completion)).Follows protocol (At (.used receiptId grantId)) (.used receiptId grantId) :=
  follows_perform ⟨rfl, h⟩ fun _ => rfl

theorem useSecret_follows (grant : CredentialGrant) (workload : WorkloadIdentity) (receipt : CredentialUseReceipt)
    (secret : Nat) : (useSecret grant workload receipt secret).Follows protocol (At (.used receipt.id grant.id))
      (.holding receipt.id grant.id) := by
  have hExecute : (ask (.execute grant workload secret)).Follows protocol (At (.used receipt.id grant.id))
      (.holding receipt.id grant.id) := follows_perform rfl fun _ => rfl
  refine hExecute.bind (fun _ _ h => h) ?_
  rintro _ _ rfl
  refine neutral_bind (by trivial) (fun _ => rfl) fun providerRequestId => ?_
  exact complete_follows (by rintro ⟨⟩)

theorem outcomeUnknown_follows (receipt : CredentialUseReceipt) (grantId : Identifier) :
    (outcomeUnknown receipt).Follows protocol (At (.used receipt.id grantId)) (.used receipt.id grantId) :=
  (complete_follows (by rintro ⟨⟩)).bind (fun _ _ h => h) fun _ _ h => h

theorem runFresh_follows (grant : CredentialGrant) (credential : CredentialMetadata) (receipt : CredentialUseReceipt)
    (workload : WorkloadIdentity) (identity : JsValue) :
    (runFresh grant credential receipt workload identity).Follows protocol (fun _ _ => True)
      (.holding receipt.id grant.id) := by
  have hFirst : (tryCatch (obtainSecret grant credential identity) fun _ => notStarted receipt).Follows protocol
      (fun result after => ∀ secret, result = .ok secret → after = .holding receipt.id grant.id)
      (.holding receipt.id grant.id) := by
    refine (obtainSecret_follows grant credential identity _).tryCatch (fun _ _ h _ _ => h) ?_
    rintro e _ rfl
    refine (notStarted_follows receipt grant.id).mono ?_
    rintro _ _ ⟨_, rfl⟩ secret ⟨⟩
  refine hFirst.bind (fun _ _ _ => trivial) fun secret phase hPhase => ?_
  rw [hPhase secret rfl]
  have hSecond : (tryCatch (useSecret grant workload receipt secret) fun _ => outcomeUnknown receipt).Follows protocol
      (At (.used receipt.id grant.id)) (.holding receipt.id grant.id) := by
    refine (useSecret_follows grant workload receipt secret).tryCatch (fun _ _ h => h) ?_
    rintro e _ rfl
    exact outcomeUnknown_follows receipt grant.id
  refine hSecond.finishWith fun result phase _ => ?_
  refine (ask_follows (by trivial) phase).mono fun outcome after _ => ?_
  cases outcome with
  | ok _ => trivial
  | error _ => trivial

theorem executeServerSide_follows (input : ExecuteInput) :
    (executeServerSide input).Follows protocol (fun _ _ => True) .idle := by
  refine (authenticateWorkload_follows input.identity .idle).bind (fun _ _ _ => trivial) ?_
  rintro workload _ rfl
  refine follows_lift_bind (fun _ => trivial) fun grantId _ => ?_
  refine follows_lift_bind (fun _ => trivial) fun request _ => ?_
  have hStart : (ask (.start workload grantId request)).Follows protocol
      (fun result after => ∀ grant credential receipt, result = .ok (.fresh grant credential receipt) →
        after = .holding receipt.id grant.id) .idle := by
    refine follows_perform trivial ?_
    rintro reply grant credential receipt rfl
    rfl
  refine hStart.bind (fun _ _ _ => trivial) fun started phase hPhase => ?_
  cases started with
  | prior receipt => trivial
  | fresh grant credential receipt =>
    rw [hPhase grant credential receipt rfl]
    exact runFresh_follows grant credential receipt workload input.identity

/-! ## What holds of the store and of the phases -/

/-- A use that is held is executing and has not been executed; a receipt has one owner; a grant that was
executed has a receipt that did not fail. -/
structure Consistent (w : World) (phases : List Phase) : Prop where
  holding : ∀ receiptId grantId, .holding receiptId grantId ∈ phases →
    Distinct (stored w.store) ∧ w.executions grantId = 0 ∧
      ∃ receipt ∈ w.receipts, receipt.id = receiptId ∧ receipt.grantId = grantId ∧ receipt.status = .executing
  used : ∀ receiptId grantId, .used receiptId grantId ∈ phases → ∃ receipt ∈ w.receipts, receipt.id = receiptId
  owners : ∀ (i j : Nat) p q receiptId, phases[i]? = some p → phases[j]? = some q → p.receipt = some receiptId →
    q.receipt = some receiptId → i = j
  once : ∀ grantId, w.executions grantId = 0 ∨ w.executions grantId = 1 ∧ Distinct (stored w.store) ∧
    ∃ receipt ∈ w.receipts, receipt.grantId = grantId ∧ receipt.status ≠ .failed

theorem exists_of_mem_set {α : Type} {xs : List α} {i : Nat} {x y : α} (h : x ∈ xs.set i y) :
    x = y ∨ ∃ j, j ≠ i ∧ xs[j]? = some x := by
  obtain ⟨j, hj⟩ := List.mem_iff_getElem?.mp h
  rw [List.getElem?_set] at hj
  split at hj
  · split at hj
    · exact .inl (Option.some.inj hj).symm
    · cases hj
  · exact .inr ⟨j, Ne.symm ‹_›, hj⟩

variable {w w' : World} {phases : List Phase} {i : Nat} {phase : Phase} {receiptId grantId : Identifier}

theorem consistent_nil (h : ∀ grantId, w.executions grantId = 0) : Consistent w [] where
  holding _ _ h := absurd h List.not_mem_nil
  used _ _ h := absurd h List.not_mem_nil
  owners i _ _ _ _ hp := by simp at hp
  once grantId := .inl (h grantId)

theorem Consistent.spawn (h : Consistent w phases) : Consistent w (phases ++ [.idle]) where
  holding receiptId grantId hMem := h.holding receiptId grantId (by simpa using hMem)
  used receiptId grantId hMem := h.used receiptId grantId (by simpa using hMem)
  owners i j p q receiptId hp hq hpId hqId := by
    have hOld : ∀ {k : Nat} {r : Phase}, (phases ++ [.idle])[k]? = some r → r.receipt = some receiptId →
        phases[k]? = some r := by
      intro k r hr hId
      by_cases hBound : k < phases.length
      · rwa [List.getElem?_append_left hBound] at hr
      · rw [List.getElem?_append_right (by omega)] at hr
        rw [List.mem_singleton.mp (List.mem_of_getElem? hr)] at hId
        cases hId
    exact h.owners i j p q receiptId (hOld hp hpId) (hOld hq hqId) hpId hqId
  once := h.once

theorem Consistent.grow (h : Consistent w phases) (hDistinct : Distinct (stored w.store) → Distinct (stored w'.store))
    (hReceipts : w.receipts ⊆ w'.receipts) (hExecutions : w'.executions = w.executions) : Consistent w' phases where
  holding receiptId grantId hMem := by
    obtain ⟨hBefore, hZero, receipt, hReceipt, hFields⟩ := h.holding receiptId grantId hMem
    exact ⟨hDistinct hBefore, hExecutions ▸ hZero, receipt, hReceipts hReceipt, hFields⟩
  used receiptId grantId hMem := by
    obtain ⟨receipt, hReceipt, hId⟩ := h.used receiptId grantId hMem
    exact ⟨receipt, hReceipts hReceipt, hId⟩
  owners := h.owners
  once grantId := by
    rw [hExecutions]
    refine (h.once grantId).imp_right ?_
    rintro ⟨hOne, hBefore, receipt, hReceipt, hFields⟩
    exact ⟨hOne, hDistinct hBefore, receipt, hReceipts hReceipt, hFields⟩

theorem owners_set {phase' : Phase} (h : Consistent w phases) (hPhase : phases[i]? = some phase)
    (hOwned : ∀ receiptId, phase'.receipt = some receiptId → phase.receipt = some receiptId) :
    ∀ (j k : Nat) p q receiptId, (phases.set i phase')[j]? = some p → (phases.set i phase')[k]? = some q →
      p.receipt = some receiptId → q.receipt = some receiptId → j = k := by
  intro j k p q receiptId hp hq hpId hqId
  have hOld : ∀ {l : Nat} {r : Phase}, (phases.set i phase')[l]? = some r → r.receipt = some receiptId →
      ∃ r', phases[l]? = some r' ∧ r'.receipt = some receiptId := by
    intro l r hr hId
    rw [List.getElem?_set] at hr
    split at hr
    · rename_i hSame
      subst hSame
      split at hr
      · cases hr
        exact ⟨phase, hPhase, hOwned receiptId hId⟩
      · cases hr
    · exact ⟨r, hr, hId⟩
  obtain ⟨p', hp', hpId'⟩ := hOld hp hpId
  obtain ⟨q', hq', hqId'⟩ := hOld hq hqId
  exact h.owners j k p' q' receiptId hp' hq' hpId' hqId'

theorem Consistent.release (h : Consistent w phases) (hPhase : phases[i]? = some phase) :
    Consistent w (phases.set i .idle) where
  holding receiptId grantId hMem := by
    obtain ⟨⟨⟩⟩ | ⟨j, _, hj⟩ := exists_of_mem_set hMem
    exact h.holding receiptId grantId (List.mem_of_getElem? hj)
  used receiptId grantId hMem := by
    obtain ⟨⟨⟩⟩ | ⟨j, _, hj⟩ := exists_of_mem_set hMem
    exact h.used receiptId grantId (List.mem_of_getElem? hj)
  owners := owners_set h hPhase (by rintro _ ⟨⟩)
  once := h.once

theorem Consistent.hold (h : Consistent w phases) (hIdle : phases[i]? = some .idle) (hDistinct : Distinct (stored w.store))
    {receipt : CredentialUseReceipt} (hReceipt : receipt ∈ w.receipts) (hStatus : receipt.status = .executing)
    (hZero : w.executions receipt.grantId = 0) (hFree : ∀ p ∈ phases, p.receipt ≠ some receipt.id) :
    Consistent w (phases.set i (.holding receipt.id receipt.grantId)) where
  holding receiptId grantId hMem := by
    obtain hSame | ⟨j, _, hj⟩ := exists_of_mem_set hMem
    · cases hSame
      exact ⟨hDistinct, hZero, receipt, hReceipt, rfl, rfl, hStatus⟩
    · exact h.holding receiptId grantId (List.mem_of_getElem? hj)
  used receiptId grantId hMem := by
    obtain ⟨⟨⟩⟩ | ⟨j, _, hj⟩ := exists_of_mem_set hMem
    exact h.used receiptId grantId (List.mem_of_getElem? hj)
  owners j k p q receiptId hp hq hpId hqId := by
    rw [List.getElem?_set] at hp hq
    by_cases hj : i = j
    · by_cases hk : i = k
      · omega
      · rw [if_neg hk] at hq
        rw [if_pos hj, if_pos (List.getElem?_eq_some_iff.mp hIdle).1] at hp
        cases hp
        cases hpId
        exact absurd hqId (hFree q (List.mem_of_getElem? hq))
    · rw [if_neg hj] at hp
      by_cases hk : i = k
      · rw [if_pos hk, if_pos (List.getElem?_eq_some_iff.mp hIdle).1] at hq
        cases hq
        cases hqId
        exact absurd hpId (hFree p (List.mem_of_getElem? hp))
      · rw [if_neg hk] at hq
        exact h.owners j k p q receiptId hp hq hpId hqId
  once := h.once

theorem Consistent.execute (h : Consistent w phases) (hPhase : phases[i]? = some (.holding receiptId grantId)) :
    Consistent (w.execute grantId) (phases.set i (.used receiptId grantId)) := by
  obtain ⟨hDistinct, hZero, receipt, hReceipt, hId, hGrant, hStatus⟩ :=
    h.holding receiptId grantId (List.mem_of_getElem? hPhase)
  refine ⟨?_, ?_, owners_set h hPhase fun _ h => h, ?_⟩
  · intro otherId otherGrant hMem
    obtain ⟨⟨⟩⟩ | ⟨j, hOther, hj⟩ := exists_of_mem_set hMem
    obtain ⟨_, hOtherZero, other, hOtherReceipt, hOtherId, hOtherGrant, hOtherStatus⟩ :=
      h.holding otherId otherGrant (List.mem_of_getElem? hj)
    have hApart : otherGrant ≠ grantId := by
      rintro rfl
      have hSame := hDistinct.eq_of_grant hOtherReceipt hReceipt (hOtherGrant.trans hGrant.symm)
      have hSameId : otherId = receiptId := by rw [← hOtherId, ← hId, hSame]
      exact hOther (h.owners j i _ _ otherId hj hPhase rfl (congrArg some hSameId.symm))
    refine ⟨hDistinct, ?_, other, hOtherReceipt, hOtherId, hOtherGrant, hOtherStatus⟩
    exact (Function.update_of_ne hApart _ _).trans hOtherZero
  · intro otherId otherGrant hMem
    obtain hSame | ⟨j, _, hj⟩ := exists_of_mem_set hMem
    · cases hSame
      exact ⟨receipt, hReceipt, hId⟩
    · exact h.used otherId otherGrant (List.mem_of_getElem? hj)
  · intro other
    by_cases hSame : other = grantId
    · subst hSame
      refine .inr ⟨?_, hDistinct, receipt, hReceipt, hGrant, by rw [hStatus]; rintro ⟨⟩⟩
      exact (Function.update_self ..).trans (by rw [hZero])
    · refine (h.once other).imp (fun hOnce => ?_) fun hOnce => ⟨?_, hOnce.2⟩
      · exact (Function.update_of_ne hSame _ _).trans hOnce
      · exact (Function.update_of_ne hSame _ _).trans hOnce.1

theorem Consistent.settle {phase' : Phase} {receipt completed : CredentialUseReceipt} (h : Consistent w phases)
    (hPhase : phases[i]? = some phase) (hOwner : phase.receipt = some receiptId)
    (hFind : w.receipts.find? (·.id == receiptId) = some receipt) (hCompletes : receipt.CompletesTo completed)
    (hDistinct : Distinct (stored w'.store)) (hReceipts : w'.receipts = setReceipt completed w.receipts)
    (hExecutions : w'.executions = w.executions)
    (hFailed : completed.status = .failed → w.executions receipt.grantId = 0)
    (hNext : phase' = .idle ∨ phase' = phase ∧ ∃ grantId, phase = .used receiptId grantId) :
    Consistent w' (phases.set i phase') := by
  have hTest := List.find?_some hFind
  have hId : receipt.id = receiptId := eq_of_beq hTest
  have hCompletedId : completed.id = receiptId := by rw [hCompletes.same]; exact hId
  have hCompletedGrant : completed.grantId = receipt.grantId := by rw [hCompletes.same]
  have hKept : ∀ other ∈ w.receipts, other.id ≠ receiptId → other ∈ w'.receipts := by
    intro other hOther hApart
    rw [hReceipts]
    exact mem_upsert_of_mem completed hOther (beq_eq_false_iff_ne.mpr (hCompletedId ▸ hApart))
  have hNew : completed ∈ w'.receipts := hReceipts ▸ mem_upsert_self _ _ _
  refine ⟨?_, ?_, owners_set h hPhase ?_, ?_⟩
  · intro otherId otherGrant hMem
    obtain hSame | ⟨j, hOther, hj⟩ := exists_of_mem_set hMem
    · rcases hNext with rfl | ⟨rfl, _, rfl⟩ <;> cases hSame
    · obtain ⟨_, hZero, other, hOtherReceipt, hOtherId, hFields⟩ :=
        h.holding otherId otherGrant (List.mem_of_getElem? hj)
      refine ⟨hDistinct, hExecutions ▸ hZero, other, hKept other hOtherReceipt ?_, hOtherId, hFields⟩
      rintro hSameId
      have hSame : otherId = receiptId := hOtherId.symm.trans hSameId
      exact hOther (h.owners j i _ _ otherId hj hPhase rfl (hSame ▸ hOwner))
  · intro otherId otherGrant hMem
    have hUsed : .used otherId otherGrant ∈ phases := by
      obtain hSame | ⟨j, _, hj⟩ := exists_of_mem_set hMem
      · rcases hNext with rfl | ⟨rfl, _⟩
        · cases hSame
        · exact hSame ▸ List.mem_of_getElem? hPhase
      · exact List.mem_of_getElem? hj
    obtain ⟨other, hOther, hOtherId⟩ := h.used otherId otherGrant hUsed
    by_cases hSame : other.id = receiptId
    · exact ⟨completed, hNew, hCompletedId.trans (hSame.symm.trans hOtherId)⟩
    · exact ⟨other, hKept other hOther hSame, hOtherId⟩
  · intro otherId hOther
    rcases hNext with rfl | ⟨rfl, _⟩
    · cases hOther
    · exact hOther
  · intro other
    rw [hExecutions]
    refine (h.once other).imp_right ?_
    rintro ⟨hOne, hBefore, found, hFound, hGrant, hStatus⟩
    refine ⟨hOne, hDistinct, ?_⟩
    by_cases hSame : found.id = receiptId
    · have hFoundEq : found = receipt :=
        hBefore.eq_of_id hFound (List.mem_of_find?_eq_some hFind) (hSame.trans hId.symm)
      subst hFoundEq
      refine ⟨completed, hNew, hCompletedGrant.trans hGrant, fun h => ?_⟩
      rw [← hGrant, hFailed h] at hOne
      cases hOne
    · exact ⟨found, hKept found hFound hSame, hGrant, hStatus⟩

/-! ## What one answer does -/

variable {executor : CredentialExecutor}

theorem respond_sameUses {part : Part} (h : part.Neutral) (choice : Choice) (w : World) :
    SameUses w (respond executor part choice w).2 := by
  cases part with
  | register candidate => exact locked_sameUses (registerOp_keeps candidate) rfl
  | rotate tenantId credentialId vaultRef expiresAt =>
    exact locked_sameUses (rotateOp_keeps tenantId credentialId vaultRef expiresAt) rfl
  | revoke tenantId credentialId => exact locked_sameUses (revokeOp_keeps tenantId credentialId) rfl
  | issue workload request expiresAt => exact locked_sameUses (issueOp_keeps workload request expiresAt _ _) rfl
  | readSecret vaultRef =>
    simp only [respond]
    split <;> exact ⟨rfl, rfl⟩
  | start | execute | complete => exact h.elim
  | _ => exact ⟨rfl, rfl⟩

theorem receipts_of_store {state : CredentialBrokerState} (w : World) :
    World.receipts { w with store := some state } = state.receipts := rfl

theorem Consistent.stored_of_owned (h : Consistent w phases) {p : Phase} (hp : p ∈ phases)
    (hOwner : p.receipt = some receiptId) : ∃ receipt ∈ w.receipts, receipt.id = receiptId := by
  cases p with
  | idle => cases hOwner
  | holding id grantId =>
    cases hOwner
    obtain ⟨_, _, receipt, hReceipt, hId, _⟩ := h.holding _ _ hp
    exact ⟨receipt, hReceipt, hId⟩
  | used id grantId =>
    cases hOwner
    exact h.used _ _ hp

theorem Consistent.start (h : Consistent w phases) (hIdle : phases[i]? = some .idle) {workload : WorkloadIdentity}
    {request : CredentialAccessRequest} {choice : Choice} {reply : Except JsError Started}
    (hReply : respond executor (.start workload grantId request) choice w = (reply, w')) :
    Consistent w' (phases.set i (protocol.next .idle (.start workload grantId request) reply)) := by
  rcases locked_cases hReply with ⟨⟨e, rfl⟩, rfl⟩ | ⟨started, now, state, hRun, hDistinct, rfl, hReported⟩
  · exact h.release hIdle
  rcases startOp_ok hRun with ⟨⟨prior, rfl⟩, rfl⟩ | ⟨grant, credential, receipt, rfl, hAdded, hGrant, hStatus, hNew⟩
  · have hSame : Consistent { w with store := some (stored w.store) } phases :=
      h.grow (fun h => h) (fun _ h => h) rfl
    rcases hReported with rfl | ⟨e, rfl⟩
    · exact hSame.release hIdle
    · exact hSame.release hIdle
  · have hGrown : Consistent { w with store := some state } phases := by
      refine h.grow (fun _ => hDistinct) ?_ rfl
      rw [receipts_of_store, hAdded]
      exact List.subset_append_left _ _
    rcases hReported with rfl | ⟨e, rfl⟩
    · have hIds := hDistinct.ids
      rw [hAdded, List.map_append, List.nodup_append] at hIds
      have hMem : receipt ∈ World.receipts { w with store := some state } := by
        rw [receipts_of_store, hAdded]
        exact List.mem_append_right _ List.mem_cons_self
      have hZero : w.executions receipt.grantId = 0 := by
        rcases h.once receipt.grantId with hZero | ⟨_, _, other, hOther, hOtherGrant, _⟩
        · exact hZero
        · exact absurd (hOtherGrant.trans hGrant) (hNew other hOther)
      have hHeld := hGrown.hold hIdle hDistinct hMem hStatus hZero fun p hp hOwner => by
        obtain ⟨other, hOther, hId⟩ := h.stored_of_owned hp hOwner
        exact hIds.2.2 _ (List.mem_map_of_mem hOther) _ List.mem_cons_self (congrArg Subtype.val hId)
      rw [hGrant] at hHeld
      exact hHeld
    · exact hGrown.release hIdle

theorem Consistent.complete (h : Consistent w phases) (hPhase : phases[i]? = some phase) {completion : Completion}
    (hAllowed : protocol.allowed phase (.complete receiptId completion)) {choice : Choice}
    {reply : Except JsError CredentialUseReceipt}
    (hReply : respond executor (.complete receiptId completion) choice w = (reply, w')) :
    Consistent w' (phases.set i (protocol.next phase (.complete receiptId completion) reply)) := by
  have hSame : phases.set i phase = phases := by
    obtain ⟨hBound, hEq⟩ := List.getElem?_eq_some_iff.mp hPhase
    rw [← hEq, List.set_getElem_self]
  rcases locked_cases hReply with ⟨⟨e, rfl⟩, rfl⟩ | ⟨completed, now, state, hRun, hDistinct, rfl, _⟩
  · cases phase with
    | idle => exact hAllowed.elim
    | holding => exact h.release hPhase
    | used =>
      change Consistent w' (phases.set i (.used _ _))
      rwa [hSame]
  · obtain ⟨receipt, hFind, hCompletes, hFailed, hReceipts⟩ := completeOp_ok hRun
    cases phase with
    | idle => exact hAllowed.elim
    | holding heldId heldGrant =>
      obtain ⟨rfl, rfl⟩ := hAllowed
      obtain ⟨hBefore, hZero, held, hHeld, hHeldId, hHeldGrant, _⟩ := h.holding _ _ (List.mem_of_getElem? hPhase)
      have hTest := List.find?_some hFind
      have hHeldEq : held = receipt :=
        hBefore.eq_of_id hHeld (List.mem_of_find?_eq_some hFind) (hHeldId.trans (eq_of_beq hTest).symm)
      subst hHeldEq
      exact h.settle hPhase rfl hFind hCompletes hDistinct hReceipts rfl (fun _ => hHeldGrant ▸ hZero) (.inl rfl)
    | used usedId usedGrant =>
      obtain ⟨rfl, hUsed⟩ := hAllowed
      exact h.settle hPhase rfl hFind hCompletes hDistinct hReceipts rfl (fun h => absurd h (hFailed hUsed))
        (.inr ⟨rfl, usedGrant, rfl⟩)

theorem Consistent.advance (h : Consistent w phases) (hPhase : phases[i]? = some phase) {part : Part}
    (hAllowed : protocol.allowed phase part) {choice : Choice} {reply : Except JsError part.Answer}
    (hReply : respond executor part choice w = (reply, w')) :
    Consistent w' (phases.set i (protocol.next phase part reply)) := by
  have hNeutral : part.Neutral → Consistent w' (phases.set i (protocol.next phase part reply)) := by
    intro hNeutral
    have hUses : SameUses w w' := by
      have hAnswer : SameUses w (respond executor part choice w).2 := respond_sameUses hNeutral choice w
      rwa [hReply] at hAnswer
    obtain ⟨hBound, hEq⟩ := List.getElem?_eq_some_iff.mp hPhase
    rw [next_of_neutral hNeutral, ← hEq, List.set_getElem_self]
    exact h.grow (fun hDistinct => hDistinct.of_receipts hUses.receipts) (fun _ hMem => hUses.receipts ▸ hMem)
      hUses.executions
  cases part with
  | start workload grantId request =>
    cases phase with
    | idle => exact h.start hPhase hReply
    | _ => exact hAllowed.elim
  | execute grant workload secret =>
    cases phase with
    | holding receiptId grantId =>
      cases hReply
      cases hAllowed
      exact h.execute hPhase
    | _ => exact hAllowed.elim
  | complete receiptId completion => exact h.complete hPhase hAllowed hReply
  | _ => exact hNeutral trivial

/-! ## Receipts along a run -/

/-- A receipt at a later time: unchanged, or completed when it was executing. -/
def CredentialUseReceipt.Becomes (receipt later : CredentialUseReceipt) : Prop :=
  later = receipt ∨ receipt.CompletesTo later

def Later (w w' : World) : Prop :=
  ∀ (k : Nat) receipt, w.receipts[k]? = some receipt → ∃ later, w'.receipts[k]? = some later ∧ receipt.Becomes later

theorem Later.refl (w : World) : Later w w := fun _ receipt h => ⟨receipt, h, .inl rfl⟩

theorem Later.trans {w₁ w₂ w₃ : World} (h : Later w₁ w₂) (hNext : Later w₂ w₃) : Later w₁ w₃ := by
  intro k receipt hReceipt
  obtain ⟨mid, hMid, hBecomes⟩ := h k receipt hReceipt
  obtain ⟨later, hLater, hAfter⟩ := hNext k mid hMid
  refine ⟨later, hLater, ?_⟩
  rcases hBecomes with rfl | hCompletes
  · exact hAfter
  · rcases hAfter with rfl | hAgain
    · exact .inr hCompletes
    · exact absurd hAgain.executing hCompletes.ended

theorem respond_later {part : Part} {choice : Choice} {reply : Except JsError part.Answer}
    (hReply : respond executor part choice w = (reply, w')) : Later w w' := by
  have hSame : w'.receipts = w.receipts → Later w w' := by
    intro hReceipts k receipt h
    exact ⟨receipt, hReceipts ▸ h, .inl rfl⟩
  have hNeutral : part.Neutral → Later w w' := by
    intro hNeutral
    have hAnswer : SameUses w (respond executor part choice w).2 := respond_sameUses hNeutral choice w
    rw [hReply] at hAnswer
    exact hSame hAnswer.receipts
  cases part with
  | start workload grantId request =>
    rcases locked_cases hReply with ⟨_, rfl⟩ | ⟨started, now, state, hRun, _, rfl, _⟩
    · exact hSame rfl
    rcases startOp_ok hRun with ⟨_, rfl⟩ | ⟨_, _, receipt, _, hAdded, _⟩
    · exact hSame rfl
    · intro k before hBefore
      refine ⟨before, ?_, .inl rfl⟩
      obtain ⟨hBound, _⟩ := List.getElem?_eq_some_iff.mp hBefore
      rw [receipts_of_store, hAdded]
      exact (List.getElem?_append_left hBound).trans hBefore
  | execute grant workload secret =>
    cases hReply
    exact hSame rfl
  | complete receiptId completion =>
    rcases locked_cases hReply with ⟨_, rfl⟩ | ⟨completed, now, state, hRun, _, rfl, _⟩
    · exact hSame rfl
    obtain ⟨receipt, hFind, hCompletes, _, hReceipts⟩ := completeOp_ok hRun
    have hId : completed.id = receiptId := by
      have hTest := List.find?_some hFind
      rw [hCompletes.same]
      exact eq_of_beq hTest
    intro k before hBefore
    rw [receipts_of_store, hReceipts, setReceipt, hId]
    rcases getElem?_upsert completed hFind hBefore with hKept | ⟨rfl, hNew⟩
    · exact ⟨before, hKept, .inl rfl⟩
    · exact ⟨completed, hNew, .inr hCompletes⟩
  | _ => exact hNeutral trivial

/-! ## Runs -/

inductive BrokerCall
  | register (input : Fields)
  | rotate (input : RotateInput)
  | revoke (tenantId credentialId : JsValue)
  | issue (input : IssueInput)
  | execute (input : ExecuteInput)

def BrokerCall.program : BrokerCall → Call Unit
  | register input => do
    let _ ← registerCredential input
  | rotate input => do
    let _ ← rotateCredential input
  | revoke tenantId credentialId => revokeCredential tenantId credentialId
  | issue input => do
    let _ ← issueGrant input
  | execute input => do
    let _ ← executeServerSide input

/-- The phase of a call does not matter once it is over. -/
abbrev Anyhow {α : Type} : Except JsError α → Phase → Prop := fun _ _ => True

theorem ask_anyhow {part : Part} (h : part.Neutral) : (ask part).Follows protocol Anyhow .idle :=
  (ask_follows h .idle).mono fun _ _ _ => trivial

theorem discard_follows {α : Type} {call : Call α} (h : call.Follows protocol Anyhow .idle) :
    (do let _ ← call : Call Unit).Follows protocol Anyhow .idle :=
  h.bind (fun _ _ _ => trivial) fun _ _ _ => trivial

theorem program_follows (call : BrokerCall) : call.program.Follows protocol Anyhow .idle := by
  cases call with
  | register input =>
    refine discard_follows (neutral_bind (by trivial) (fun _ => trivial) fun now => ?_)
    exact follows_lift_bind (fun _ => trivial) fun candidate _ => ask_anyhow (by trivial)
  | rotate input =>
    refine discard_follows (follows_lift_bind (fun _ => trivial) fun tenantId _ => ?_)
    refine follows_lift_bind (fun _ => trivial) fun credentialId _ => ?_
    refine follows_lift_bind (fun _ => trivial) fun vaultRef _ => ?_
    refine neutral_bind (by trivial) (fun _ => trivial) fun now => ?_
    exact follows_lift_bind (fun _ => trivial) fun expiresAt _ => ask_anyhow (by trivial)
  | revoke tenantId credentialId =>
    refine follows_lift_bind (fun _ => trivial) fun tenantId _ => ?_
    exact follows_lift_bind (fun _ => trivial) fun credentialId _ => ask_anyhow (by trivial)
  | issue input =>
    refine discard_follows ((authenticateWorkload_follows input.identity .idle).bind (fun _ _ _ => trivial) ?_)
    rintro workload _ rfl
    refine follows_lift_bind (fun _ => trivial) fun request _ => ?_
    refine neutral_bind (by trivial) (fun _ => trivial) fun now => ?_
    exact follows_lift_bind (fun _ => trivial) fun expiresAt _ => ask_anyhow (by trivial)
  | execute input => exact discard_follows (executeServerSide_follows input)

def environment (executor : CredentialExecutor) : Environment World Part Part.Answer JsError Choice where
  respond part choice w := some (respond executor part choice w)

/-- Calls of the broker that run at the same time over one store; none of them has called the executor yet. -/
def machine (executor : CredentialExecutor) (store : Store) :
    Transition.Machine (Pool World Part Part.Answer JsError) (PoolEvent BrokerCall Choice) :=
  Pool.machine (environment executor) BrokerCall.program { store }

theorem run_consistent {store : Store} {events : List (PoolEvent BrokerCall Choice)}
    {s : Pool World Part Part.Answer JsError} (run : (machine executor store).FreeRun events s) :
    ∃ phases, Consistent s.world phases := by
  obtain ⟨phases, _, h⟩ := Pool.run_phases (J := Consistent) (consistent_nil fun _ => rfl) program_follows
    (fun _ _ => Consistent.spawn) (fun w phases i phase part choice reply w' h hPhase hAllowed hReply =>
      h.advance hPhase hAllowed (Option.some.inj hReply)) run
  exact ⟨phases, h⟩

/-- The executor is called at most once for a grant; a receipt that failed has a grant for which it was never
called; and later states only complete receipts that are executing. -/
theorem execution_protocol (executor : CredentialExecutor) (store : Store) {events : List (PoolEvent BrokerCall Choice)}
    {s : Pool World Part Part.Answer JsError} (run : (machine executor store).FreeRun events s) :
    (∀ grantId, s.world.executions grantId ≤ 1) ∧
      (∀ receipt ∈ s.world.receipts, receipt.status = .failed → s.world.executions receipt.grantId = 0) ∧
      ∀ events' later, ((machine executor store).resume s).FreeRun events' later → Later s.world later.world := by
  obtain ⟨phases, h⟩ := run_consistent run
  refine ⟨fun grantId => ?_, fun receipt hReceipt hFailed => ?_, fun events' later rest => ?_⟩
  · rcases h.once grantId with hZero | ⟨hOne, _⟩ <;> omega
  · rcases h.once receipt.grantId with hZero | ⟨_, hDistinct, other, hOther, hGrant, hStatus⟩
    · exact hZero
    · rw [hDistinct.eq_of_grant hOther hReceipt hGrant] at hStatus
      exact absurd hFailed hStatus
  · refine Pool.run_world Later.refl (fun _ _ _ => Later.trans) ?_ rest
    intro part choice w reply w' hReply
    exact respond_later (Option.some.inj hReply)

def payEvents : List (PoolEvent BrokerCall Choice) :=
  [.spawn (.execute payInput), .advance 0 { identity := .ok payIdentity }, .advance 0 {}, .advance 0 {},
    .advance 0 { secret := .ok (some [1]) }, .advance 0 { identity := .ok payIdentity }, .advance 0 {}, .advance 0 {},
    .advance 0 {}, .advance 0 {}, .advance 0 { executed := .ok (.string "acme") }, .advance 0 {}, .advance 0 {}]

theorem execution_protocol_used : ∃ s, (machine payExecutor (some grantedState)).FreeRun payEvents s ∧
    s.world.executions acme = 1 ∧ s.world.receipts.map CredentialUseReceipt.status = [.executed acme] ∧
    ((∀ grantId, s.world.executions grantId ≤ 1) ∧
      (∀ receipt ∈ s.world.receipts, receipt.status = .failed → s.world.executions receipt.grantId = 0) ∧
      ∀ events' later, ((machine payExecutor (some grantedState)).resume s).FreeRun events' later →
        Later s.world later.world) := by
  have hSeen : ((machine payExecutor (some grantedState)).exec (machine payExecutor (some grantedState)).initial
      payEvents).map (fun s => (s.world.executions acme, s.world.receipts.map CredentialUseReceipt.status)) =
        some (1, [.executed acme]) := by decide +kernel
  obtain ⟨s, hExec, hSeen⟩ := Option.map_eq_some_iff.mp hSeen
  have run := Transition.Machine.freeRun_of_exec hExec
  exact ⟨s, run, congrArg Prod.fst hSeen, congrArg Prod.snd hSeen, execution_protocol payExecutor (some grantedState) run⟩

end GhostApi.Credentials
