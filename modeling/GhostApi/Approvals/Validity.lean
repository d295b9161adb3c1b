import GhostApi.Approvals.Inbox

/-!
# Valid states of the inbox

What validateState accepts, and that the steps inside an operation keep it:
the passing of time, an audit record, a new status and a link to the request
that was replaced.
-/

namespace GhostApi.Approvals

open Js Validation Storage Effect Effect.Mutation Table
open Actions (ActionEnvelope EffectsAllowed validateActionEnvelope validateActionEnvelope_toValue_eq_ok actionHash)

/-! ## Requests -/

/-- The times of a request: it expires after its creation, and not before its escalation. -/
structure ApprovalRequest.Timely (request : ApprovalRequest) : Prop where
  created : Date.isTimestamp request.createdAt = true
  expires : Date.isTimestamp request.expiresAt = true
  escalates : Date.isTimestamp request.escalationAt = true
  later : parsed request.createdAt < parsed request.expiresAt
  escalated : parsed request.escalationAt ≤ parsed request.expiresAt

/-- What the status of a request asks of its other members. -/
structure ApprovalRequest.Backed (request : ApprovalRequest) : Prop where
  artifact : request.status = .approved ∨ request.status.consumed → request.artifact ≠ none
  consumed : request.status.consumed → request.consumedAt ≠ none
  executed : request.status = .executed → request.executionReceiptHash ≠ none

structure ApprovalRequest.Valid (request : ApprovalRequest) : Prop where
  effects : EffectsAllowed request.action.operation request.action.expectedSideEffects
  hash : Actions.actionHash request.action = request.actionHash
  risk : classify request.action = .ok request.risk
  display : ∃ shown, displayRecord request.display request.action request.context = .ok shown
  decisionCount : request.decisions.length ≤ MAX_DECISIONS
  decisions : ∀ decision ∈ request.decisions, Date.isTimestamp decision.decidedAt = true
  timely : request.Timely
  artifact : validateArtifact request.artifact request.actionHash = .ok ()
  consumedAt : checkOptional request.consumedAt "Approval consumption time" = .ok ()
  backed : request.Backed

theorem validateRequest_eq_ok {request : ApprovalRequest} : validateRequest request = .ok () ↔ request.Valid := by
  have hUnit : ∀ p : Unit → Prop, (∃ u, p u) ↔ p () := fun p => ⟨by rintro ⟨⟨⟩, h⟩; exact h, fun h => ⟨(), h⟩⟩
  simp only [validateRequest, bind_eq_ok_iff, hUnit, validateActionEnvelope_toValue_eq_ok, failIf_eq_ok, atMost_eq_ok,
    forM_eq_ok, validateDecision, checkTimestamp_eq_ok]
  constructor
  · rintro ⟨action, ⟨rfl, hEffects⟩, hHash, risk, hRisk, hSame, shown, hShown, hCount, hDecisions, hCreated, hExpires,
      hEscalates, hOrder, hArtifact, hApproved, hConsumedAt, hConsumed, hExecuted⟩
    rw [not_not] at hHash hSame
    rw [not_or, Int.not_le, Int.not_lt] at hOrder
    exact ⟨hEffects, hHash, hSame ▸ hRisk, ⟨shown, hShown⟩, hCount, hDecisions,
      ⟨hCreated, hExpires, hEscalates, hOrder.1, hOrder.2⟩, hArtifact, hConsumedAt,
      ⟨not_and.mp hApproved, not_and.mp hConsumed, not_and.mp hExecuted⟩⟩
  · rintro ⟨hEffects, hHash, hRisk, ⟨shown, hShown⟩, hCount, hDecisions, ⟨hCreated, hExpires, hEscalates, hLater,
      hEscalated⟩, hArtifact, hConsumedAt, ⟨hApproved, hConsumed, hExecuted⟩⟩
    exact ⟨_, ⟨rfl, hEffects⟩, not_not.mpr hHash, _, hRisk, not_not.mpr rfl, shown, hShown, hCount, hDecisions, hCreated,
      hExpires, hEscalates, not_or.mpr ⟨Int.not_le.mpr hLater, Int.not_lt.mpr hEscalated⟩, hArtifact,
      not_and.mpr hApproved, hConsumedAt, not_and.mpr hConsumed, not_and.mpr hExecuted⟩

theorem ApprovalRequest.Valid.withStatus {request : ApprovalRequest} (h : request.Valid)
    {status : ApprovalRequestStatus} (hApproved : status ≠ .approved) (hConsumed : status.consumed = false) :
    ({ request with status } : ApprovalRequest).Valid := by
  obtain ⟨hEffects, hHash, hRisk, hShown, hCount, hDecisions, ⟨hCreated, hExpires, hEscalates, hLater, hEscalated⟩,
    hArtifact, hConsumedAt, _⟩ := h
  refine ⟨hEffects, hHash, hRisk, hShown, hCount, hDecisions, ⟨hCreated, hExpires, hEscalates, hLater, hEscalated⟩,
    hArtifact, hConsumedAt, ?_⟩
  constructor
  · simp [hApproved, hConsumed]
  · simp [hConsumed]
  · rintro rfl
    cases hConsumed

theorem ApprovalRequest.Valid.withLink {request : ApprovalRequest} (h : request.Valid) (oldId : Identifier) :
    ({ request with supersedesRequestId := some oldId } : ApprovalRequest).Valid := by
  obtain ⟨hEffects, hHash, hRisk, hShown, hCount, hDecisions, ⟨hCreated, hExpires, hEscalates, hLater, hEscalated⟩,
    hArtifact, hConsumedAt, ⟨hApproved, hConsumed, hExecuted⟩⟩ := h
  exact ⟨hEffects, hHash, hRisk, hShown, hCount, hDecisions, ⟨hCreated, hExpires, hEscalates, hLater, hEscalated⟩,
    hArtifact, hConsumedAt, ⟨hApproved, hConsumed, hExecuted⟩⟩

/-! ## States -/

structure ApprovalAuditRecord.Sealed (record : ApprovalAuditRecord) : Prop where
  sequence : 1 ≤ record.sequence ∧ record.sequence ≤ 100000
  timestamp : Date.isTimestamp record.timestamp = true
  hash : record.recordHash = record.toAuditBase.seal.recordHash

theorem validateAudit_eq_ok {record : ApprovalAuditRecord} : validateAudit record = .ok () ↔ record.Sealed := by
  simp only [validateAudit, bind_unit_eq_ok, failIf_eq_ok, not_not, checkTimestamp_eq_ok]
  constructor
  · rintro ⟨hSequence, hTimestamp, hHash⟩
    exact ⟨hSequence, hTimestamp, hHash⟩
  · rintro ⟨hSequence, hTimestamp, hHash⟩
    exact ⟨hSequence, hTimestamp, hHash⟩

structure AuditValid (state : ApprovalInboxState) : Prop where
  length : state.audit.length ≤ MAX_AUDIT
  records : ∀ record ∈ state.audit, record.Sealed
  chain : auditChain.Linked state.auditAnchor 1 state.audit

structure Valid (state : ApprovalInboxState) : Prop extends AuditValid state where
  count : state.requests.length ≤ MAX_REQUESTS
  requests : ∀ request ∈ state.requests, request.Valid
  ids : (state.requests.map fun request => request.id.val).Nodup
  hashes : (state.requests.map fun request => request.actionHash.val).Nodup

theorem format_accepts : format.Accepts Valid := by
  intro state state'
  have hPure : ∀ x : ApprovalInboxState, (pure x : Except JsError _) = .ok state' ↔ x = state' :=
    fun x => ⟨fun h => by cases h; rfl, fun h => by rw [h]; rfl⟩
  change validateState state = .ok state' ↔ _
  simp only [validateState, bind_unit_eq_ok, atMost_eq_ok, unique_eq_ok, forM_eq_ok, validateRequest_eq_ok,
    validateAudit_eq_ok, validateAuditChain, NumberedChain.verify_eq_ok, hPure]
  constructor
  · rintro ⟨hCount, hRequests, hIds, hHashes, hLength, hRecords, hChain, h⟩
    exact ⟨⟨⟨hLength, hRecords, hChain⟩, hCount, hRequests, hIds, hHashes⟩, h⟩
  · rintro ⟨⟨⟨hLength, hRecords, hChain⟩, hCount, hRequests, hIds, hHashes⟩, h⟩
    exact ⟨hCount, hRequests, hIds, hHashes, hLength, hRecords, hChain, h⟩

theorem emptyState_valid : Valid emptyState where
  length := Nat.zero_le _
  records _ hRecord := absurd hRecord (List.not_mem_nil)
  chain := ⟨trivial, rfl⟩
  count := Nat.zero_le _
  requests _ hRequest := absurd hRequest (List.not_mem_nil)
  ids := List.nodup_nil
  hashes := List.nodup_nil

/-! ## What the inbox reads -/

theorem read_ok {store : Store} {state : ApprovalInboxState} (h : read store = .ok state) :
    state = store.getD emptyState ∧ Valid state := by
  rw [read] at h
  split at h
  · rename_i stored hRead
    cases h
    refine ⟨format_accepts.read_ok hRead, ?_⟩
    cases store with
    | none =>
      cases hRead
      exact emptyState_valid
    | some stored =>
      rw [StoreFormat.read] at hRead
      obtain ⟨_, hValid⟩ := ite_error_eq_ok hRead
      obtain ⟨hStored, rfl⟩ := (format_accepts _ _).mp hValid
      exact hStored
  · cases h

theorem read_stored {state : ApprovalInboxState} (h : Valid state) :
    read (some state) = .ok state ↔ format.bytes state ≤ MAX_STORE_BYTES := by
  constructor
  · intro hRead
    by_contra hLarge
    have hOversized : format.read (some state) = .error format.oversized := if_pos (Nat.not_le.mp hLarge)
    rw [read, hOversized] at hRead
    cases hRead
  · intro hBytes
    rw [read, format_accepts.read_of_size h hBytes]

/-! ## Mutations -/

section Mutations

variable {α : Type} {operation : Int → Op α} {access : Access} {store : Store} {a : α}

theorem run_eq_ok {after : ApprovalInboxState} : run operation access store = .ok (a, after) ↔
    access.lock = .ok () ∧ ∃ state now, read store = .ok state ∧ format.timestamp access.clock = .ok now ∧
      operation now state = (.ok a, after) ∧ Valid after := by
  constructor
  · intro h
    obtain ⟨_, hLock, h⟩ := bind_eq_ok h
    obtain ⟨state, hRead, h⟩ := bind_eq_ok h
    obtain ⟨now, hClock, h⟩ := bind_eq_ok h
    refine ⟨hLock, state, now, hRead, hClock, ?_⟩
    split at h
    · cases h
    · rename_i result written hRun
      obtain ⟨validated, hValidated, hPure⟩ := bind_eq_ok h
      obtain ⟨hValid, rfl⟩ := (format_accepts _ _).mp hValidated
      cases hPure
      exact ⟨hRun, hValid⟩
  · rintro ⟨hLock, state, now, hRead, hClock, hRun, hValid⟩
    have hWrite : format.validate after = .ok after := (format_accepts _ _).mpr ⟨hValid, rfl⟩
    rw [run, hLock, ok_bind, hRead, ok_bind, hClock, ok_bind, hRun]
    change (format.validate after >>= _) = _
    rw [hWrite]
    rfl

def Access.leaves (access : Access) (after : ApprovalInboxState) (store : Store) : Store := match access.write with
  | .ok _ => some after
  | .error _ => if access.reached then some after else store

theorem mutate_of_run {after : ApprovalInboxState} (h : run operation access store = .ok (a, after)) :
    mutate operation access store = (access.write.map fun _ => a, access.leaves after store) := by
  rw [mutate, h, Access.leaves]
  cases access.write <;> rfl

theorem mutate_of_error {e : JsError} (h : run operation access store = .error e) :
    mutate operation access store = (.error e, store) := by rw [mutate, h]

theorem mutate_ok {store' : Store} (h : mutate operation access store = (.ok a, store')) :
    ∃ after, run operation access store = .ok (a, after) ∧ access.write = .ok () ∧ store' = some after := by
  cases hRun : run operation access store with
  | error e =>
    rw [mutate_of_error hRun] at h
    cases h
  | ok result =>
    obtain ⟨b, after⟩ := result
    rw [mutate_of_run hRun, Access.leaves] at h
    cases hWrite : access.write with
    | error e =>
      rw [hWrite] at h
      cases h
    | ok u =>
      rw [hWrite] at h
      cases h
      exact ⟨after, rfl, rfl, rfl⟩

end Mutations

/-! ## Audit records -/

section Audit

variable {state : ApprovalInboxState} {now : Int} {request : ApprovalRequest}

theorem appendAudit_requests (event : Text 80) (request : ApprovalRequest) (actorId : Identifier) (now : Int)
    (state : ApprovalInboxState) : (appendAudit event request actorId now state).requests = state.requests := rfl

theorem appendAudit_length (event : Text 80) (request : ApprovalRequest) (actorId : Identifier) (now : Int)
    (state : ApprovalInboxState) : (appendAudit event request actorId now state).audit.length = state.audit.length + 1 :=
  List.length_append

theorem appendAudit_valid {event : Text 80} {actorId : Identifier} :
    AuditValid (appendAudit event request actorId now state) ↔
      AuditValid state ∧ state.audit.length < MAX_AUDIT ∧ Printable now := by
  constructor
  · rintro ⟨hLength, hRecords, hChain⟩
    rw [appendAudit_length] at hLength
    have hOld : ∀ record ∈ state.audit, record.Sealed := fun record hRecord =>
      hRecords record (List.mem_append_left _ hRecord)
    have hNew := hRecords _ (List.mem_append_right _ (List.mem_singleton_self _))
    exact ⟨⟨Nat.le_of_succ_le hLength, hOld, (NumberedChain.linked_append.mp hChain).1⟩, hLength, hNew.timestamp⟩
  · rintro ⟨⟨_, hRecords, hChain⟩, hRoom, hNow⟩
    have hSequence : state.audit.length + 1 ≤ 100000 := hRoom.trans (by decide)
    refine ⟨?_, ?_, NumberedChain.linked_append.mpr ⟨hChain, Nat.add_comm _ _, rfl⟩⟩
    · rw [appendAudit_length]
      exact hRoom
    · intro record hRecord
      rcases List.mem_append.mp hRecord with hOld | hNew
      · exact hRecords record hOld
      · obtain rfl := List.mem_singleton.mp hNew
        exact ⟨⟨Nat.succ_le_succ (Nat.zero_le _), hSequence⟩, hNow, rfl⟩

/-! ## The passing of time -/

def Lapses (now : Int) (requests : List ApprovalRequest) : Prop := ∃ request ∈ requests, lapse now request ≠ none

theorem lapsed_eq (now : Int) (request : ApprovalRequest) : ∃ status, lapsed now request = { request with status } ∧
    (status = request.status ∨ status = .timedOut ∨ status = .expired) := by
  rw [lapsed, lapse]
  split
  · exact ⟨.timedOut, rfl, by simp⟩
  · split
    · exact ⟨.expired, rfl, by simp⟩
    · exact ⟨request.status, rfl, by simp⟩

theorem lapsed_valid (h : request.Valid) (now : Int) : (lapsed now request).Valid := by
  obtain ⟨status, hLapsed, hStatus⟩ := lapsed_eq now request
  rw [hLapsed]
  rcases hStatus with rfl | rfl | rfl
  · exact h
  · exact h.withStatus (by simp) (by simp [ApprovalRequestStatus.consumed])
  · exact h.withStatus (by simp) (by simp [ApprovalRequestStatus.consumed])

theorem map_lapsed {β : Type} {f : ApprovalRequest → β} (hf : ∀ request status, f { request with status } = f request)
    (now : Int) (requests : List ApprovalRequest) : (requests.map (lapsed now)).map f = requests.map f := by
  rw [List.map_map]
  refine List.map_congr_left fun request _ => ?_
  obtain ⟨status, hLapsed, _⟩ := lapsed_eq now request
  rw [Function.comp_apply, hLapsed, hf]

theorem noteLapses_length (now : Int) (requests : List ApprovalRequest) (state : ApprovalInboxState) :
    state.audit.length ≤ (requests.foldl (noteLapse now) state).audit.length := by
  induction requests generalizing state with
  | nil => exact Nat.le_refl _
  | cons request rest ih =>
    rw [List.foldl_cons]
    refine Nat.le_trans ?_ (ih _)
    rw [noteLapse]
    cases lapse now request with
    | none => exact Nat.le_refl _
    | some change => exact Nat.le_of_lt (by simp [appendAudit_length])

theorem noteLapses_valid {requests : List ApprovalRequest} : AuditValid (requests.foldl (noteLapse now) state) ↔
    AuditValid state ∧ (requests.foldl (noteLapse now) state).audit.length ≤ MAX_AUDIT ∧
      (Lapses now requests → Printable now) := by
  induction requests generalizing state with
  | nil =>
    have hNone : ¬Lapses now [] := by rintro ⟨_, hMem, _⟩; exact List.not_mem_nil hMem
    exact ⟨fun hValid => ⟨hValid, hValid.length, fun hLapses => absurd hLapses hNone⟩, fun h => h.1⟩
  | cons request rest ih =>
    have hCons : Lapses now (request :: rest) ↔ lapse now request ≠ none ∨ Lapses now rest := by simp [Lapses]
    have hGrows := noteLapses_length now rest (noteLapse now state request)
    rw [List.foldl_cons, hCons, ih]
    rw [noteLapse] at hGrows ⊢
    cases hLapse : lapse now request with
    | none => simp
    | some change =>
      rw [hLapse, Option.elim_some, appendAudit_length] at hGrows
      rw [Option.elim_some, appendAudit_valid]
      constructor
      · rintro ⟨⟨hState, _, hNow⟩, hLength, _⟩
        exact ⟨hState, hLength, fun _ => hNow⟩
      · rintro ⟨hState, hLength, hPrintable⟩
        have hNow : Printable now := hPrintable (.inl (by simp))
        exact ⟨⟨hState, by omega, hNow⟩, hLength, fun _ => hNow⟩

theorem refresh_requests (now : Int) (state : ApprovalInboxState) :
    (refresh now state).requests = state.requests.map (lapsed now) := rfl

theorem refresh_valid (h : Valid state) : Valid (refresh now state) ↔
    (refresh now state).audit.length ≤ MAX_AUDIT ∧ (Lapses now state.requests → Printable now) := by
  constructor
  · rintro ⟨hAudit, _⟩
    have hNoted : AuditValid (state.requests.foldl (noteLapse now) state) :=
      ⟨hAudit.length, hAudit.records, hAudit.chain⟩
    exact (noteLapses_valid.mp hNoted).2
  · rintro hRefresh
    have hNoted : AuditValid (state.requests.foldl (noteLapse now) state) :=
      noteLapses_valid.mpr ⟨h.toAuditValid, hRefresh⟩
    refine ⟨⟨hNoted.length, hNoted.records, hNoted.chain⟩, ?_, ?_, ?_, ?_⟩
    · rw [refresh_requests, List.length_map]
      exact h.count
    · intro request hRequest
      obtain ⟨before, hBefore, rfl⟩ := List.mem_map.mp hRequest
      exact lapsed_valid (h.requests before hBefore) now
    · rw [refresh_requests, map_lapsed fun _ _ => rfl]
      exact h.ids
    · rw [refresh_requests, map_lapsed fun _ _ => rfl]
      exact h.hashes

/-! ## Changes of a state -/

theorem valid_appendAudit {event : Text 80} {actorId : Identifier} :
    Valid (appendAudit event request actorId now state) ↔
      Valid state ∧ state.audit.length < MAX_AUDIT ∧ Printable now := by
  constructor
  · rintro ⟨hAudit, hCount, hRequests, hIds, hHashes⟩
    obtain ⟨hAudit, hRoom⟩ := appendAudit_valid.mp hAudit
    exact ⟨⟨hAudit, hCount, hRequests, hIds, hHashes⟩, hRoom⟩
  · rintro ⟨⟨hAudit, hCount, hRequests, hIds, hHashes⟩, hRoom⟩
    exact ⟨appendAudit_valid.mpr ⟨hAudit, hRoom⟩, hCount, hRequests, hIds, hHashes⟩

theorem setRequest_valid {before : ApprovalRequest} (h : Valid state)
    (hFind : state.requests.find? (·.id == request.id) = some before) (hHash : request.actionHash = before.actionHash)
    (hRequest : request.Valid) : Valid (setRequest request state) := by
  have hId : request.id.val = before.id.val := by
    have hSame := List.find?_some hFind
    rw [beq_iff_eq] at hSame
    rw [hSame]
  have hIds := map_upsert (fun request => request.id.val) hFind hId
  have hHashes := map_upsert (fun request => request.actionHash.val) hFind (congrArg Subtype.val hHash)
  refine ⟨⟨h.length, h.records, h.chain⟩, ?_, ?_, ?_, ?_⟩
  · have hLength := congrArg List.length hIds
    rw [List.length_map, List.length_map] at hLength
    rw [setRequest, hLength]
    exact h.count
  · intro other hOther
    rcases eq_or_mem_of_mem_upsert hOther with rfl | hMem
    · exact hRequest
    · exact h.requests other hMem
  · rw [setRequest, hIds]
    exact h.ids
  · rw [setRequest, hHashes]
    exact h.hashes

theorem pushRequest_valid : Valid (pushRequest request state) ↔ Valid state ∧ request.Valid ∧
    state.requests.length < MAX_REQUESTS ∧ (∀ other ∈ state.requests, other.id ≠ request.id) ∧
      ∀ other ∈ state.requests, other.actionHash ≠ request.actionHash := by
  have hNew : ∀ f : ApprovalRequest → String, ((state.requests ++ [request]).map f).Nodup ↔
      (state.requests.map f).Nodup ∧ ∀ other ∈ state.requests, f other ≠ f request := by
    intro f
    rw [List.map_append, List.map_singleton, List.nodup_append]
    simp
  constructor
  · rintro ⟨hAudit, hCount, hRequests, hIds, hHashes⟩
    obtain ⟨hIds, hId⟩ := (hNew _).mp hIds
    obtain ⟨hHashes, hHash⟩ := (hNew _).mp hHashes
    rw [pushRequest, List.length_append] at hCount
    refine ⟨⟨⟨hAudit.length, hAudit.records, hAudit.chain⟩, Nat.le_of_succ_le hCount, ?_, hIds, hHashes⟩, ?_, hCount,
      ?_, ?_⟩
    · exact fun other hOther => hRequests other (List.mem_append_left _ hOther)
    · exact hRequests request (List.mem_append_right _ (List.mem_singleton_self _))
    · exact fun other hOther hSame => hId other hOther (congrArg Subtype.val hSame)
    · exact fun other hOther hSame => hHash other hOther (congrArg Subtype.val hSame)
  · rintro ⟨h, hRequest, hCount, hId, hHash⟩
    refine ⟨⟨h.length, h.records, h.chain⟩, ?_, ?_, (hNew _).mpr ⟨h.ids, ?_⟩, (hNew _).mpr ⟨h.hashes, ?_⟩⟩
    · rw [pushRequest, List.length_append]
      exact hCount
    · intro other hOther
      rcases List.mem_append.mp hOther with hOld | hLast
      · exact h.requests other hOld
      · obtain rfl := List.mem_singleton.mp hLast
        exact hRequest
    · exact fun other hOther hSame => hId other hOther (Subtype.ext hSame)
    · exact fun other hOther hSame => hHash other hOther (Subtype.ext hSame)

end Audit

end GhostApi.Approvals
