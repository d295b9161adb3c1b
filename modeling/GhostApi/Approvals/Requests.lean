import GhostApi.Actions.Scripts
import GhostApi.Approvals.Validity

/-!
# When a request is accepted

The checks of a new request on its way into the store, brought together: what
the policy evaluates, and what validateState asks of the record that request
builds. The second list has conditions that the first one does not imply.
-/

namespace GhostApi.Approvals

open Js Validation Storage Effect Effect.Mutation
open Actions (ActionEnvelope EffectsAllowed validateActionEnvelope validateActionEnvelope_ok actionHash)

/-! ## Evaluation -/

section Evaluation

variable {policy : ApprovalPolicy} {action : ActionEnvelope} {context : ApprovalContext}
  {history : List ApprovalRequest} {now : Int} {currentId : Option Identifier} {decision : ApprovalEvaluation}

def approval (policy : ApprovalPolicy) (context : ApprovalContext) : ApprovalEvaluation :=
  let required := requiredApprovals policy context .update
  ⟨true, required, [approvalReason required]⟩

theorem classify_ok {risk : ApprovalRisk} (h : classify action = .ok risk) : risk = .update := by
  rw [classify] at h
  split at h
  · cases h
    rfl
  · cases h

theorem evaluate_allowed : evaluate policy action context history now currentId = .ok decision ∧
    decision.allowed = true ↔ classify action = .ok .update ∧
      denials policy action context history now currentId = [] ∧ decision = approval policy context := by
  rw [evaluate]
  constructor
  · rintro ⟨h, hAllowed⟩
    obtain ⟨risk, hRisk, h⟩ := bind_eq_ok h
    obtain rfl := classify_ok hRisk
    cases h
    have hLength : (denials policy action context history now currentId).length = 0 := by simpa using hAllowed
    have hDenials := List.length_eq_zero_iff.mp hLength
    refine ⟨hRisk, hDenials, ?_⟩
    rw [hDenials]
    rfl
  · rintro ⟨hRisk, hDenials, rfl⟩
    rw [hRisk, ok_bind, hDenials]
    exact ⟨rfl, rfl⟩

theorem reasons_accepted : ∀ reason ∈ ["independent two-person approval is required",
    "independent human approval is required"], acceptsText 200 reason = true ∧ trim reason = reason := by decide +kernel

theorem approvalReason_text (required : RequiredApprovals) (label : String) :
    ∃ t : Text 200, text fail (.string (approvalReason required)) label 200 = .ok t ∧
      t.val = approvalReason required := by
  have hAccepted : acceptsText 200 (approvalReason required) = true ∧
      trim (approvalReason required) = approvalReason required := by
    rw [approvalReason]
    split
    · exact reasons_accepted _ (by simp)
    · exact reasons_accepted _ (by simp)
  exact ⟨_, text_of_accepts label hAccepted.1 hAccepted.2, rfl⟩

theorem displayRecord_approval (policy : ApprovalPolicy) (action : ActionEnvelope) (context : ApprovalContext) :
    ∃ shown, displayRecord (display action context (approval policy context).reasons) action context = .ok shown := by
  obtain ⟨t, hText, hVal⟩ := approvalReason_text (requiredApprovals policy context .update) "Approval policy reason"
  have hOne : atMost fail (display action context (approval policy context).reasons).policyReason
      "Approval policy reason" 16 = .ok () := atMost_eq_ok.mpr (by decide : 1 ≤ 16)
  have hReasons : (display action context (approval policy context).reasons).policyReason.mapM (fun reason =>
      text fail (.string reason) "Approval policy reason" 200) = .ok [t] := by
    change [approvalReason (requiredApprovals policy context .update)].mapM _ = _
    rw [List.mapM_cons, hText]
    rfl
  have hSame : [t].map Subtype.val = (approval policy context).reasons := by
    rw [List.map_singleton, hVal]
    rfl
  refine ⟨display action context (approval policy context).reasons, ?_⟩
  rw [displayRecord, hOne, ok_bind, hReasons, ok_bind, hSame]
  dsimp only
  rw [failIf_of_not (not_not.mpr rfl)]
  rfl

end Evaluation

/-! ## The new request -/

section New

variable {action : ActionEnvelope} {policy : ApprovalPolicy} {context : ApprovalContext} {uuid : String} {now : Int}
  {state after : ApprovalInboxState} {id : Identifier} {result : ApprovalRequest}

def newRequest (action : ActionEnvelope) (policy : ApprovalPolicy) (context : ApprovalContext) (id : Identifier)
    (now : Int) : ApprovalRequest :=
  created action policy context (approval policy context) id .update (Date.toISOString now)
    (Date.toISOString (expiry action policy now)) (Date.toISOString (escalation policy now))

/-- The state with the new request and its audit record. -/
def withRequest (request : ApprovalRequest) (now : Int) (state : ApprovalInboxState) : ApprovalInboxState :=
  appendAudit requestCreated request request.action.actor.id now (pushRequest request (refresh now state))

theorem parsed_toISOString {ms : Int} (h : Printable ms) : parsed (Date.toISOString ms) = ms := by
  rw [parsed, Date.parse_toISOString h]
  rfl

theorem escalation_bounds (policy : ApprovalPolicy) (now : Int) :
    now + 1000 ≤ escalation policy now ∧ escalation policy now ≤ now + policy.approvalTtlMs.val := by
  have hLow := policy.escalationTimeoutMs.property.1
  have hOrdered := policy.ordered
  rw [escalation]
  omega

theorem newRequest_timely : (newRequest action policy context id now).Timely ↔
    escalation policy now ≤ timeOf action.expiresAt ∧
      Printable now ∧ Printable (expiry action policy now) ∧ Printable (escalation policy now) := by
  obtain ⟨hSoon, hLate⟩ := escalation_bounds policy now
  have hExpiry : expiry action policy now = min (timeOf action.expiresAt) (now + policy.approvalTtlMs.val) := rfl
  constructor
  · rintro ⟨hCreated, hExpires, hEscalates, _, hEscalated⟩
    have hOrder : escalation policy now ≤ expiry action policy now := by
      rw [← parsed_toISOString hEscalates, ← parsed_toISOString hExpires]
      exact hEscalated
    exact ⟨by omega, hCreated, hExpires, hEscalates⟩
  · rintro ⟨hInTime, hCreated, hExpires, hEscalates⟩
    refine ⟨hCreated, hExpires, hEscalates, ?_, ?_⟩
    · change parsed (Date.toISOString now) < parsed (Date.toISOString (expiry action policy now))
      rw [parsed_toISOString hCreated, parsed_toISOString hExpires]
      omega
    · change parsed (Date.toISOString (escalation policy now)) ≤ parsed (Date.toISOString (expiry action policy now))
      rw [parsed_toISOString hEscalates, parsed_toISOString hExpires]
      omega

theorem newRequest_valid (hEffects : EffectsAllowed action.operation action.expectedSideEffects)
    (hRisk : classify action = .ok .update) : (newRequest action policy context id now).Valid ↔
      (newRequest action policy context id now).Timely := by
  constructor
  · exact fun h => h.timely
  · intro hTimely
    refine ⟨hEffects, rfl, hRisk, displayRecord_approval policy action context, Nat.zero_le _, ?_, hTimely, rfl, rfl, ?_⟩
    · exact fun _ hDecision => absurd hDecision List.not_mem_nil
    · constructor
      · simp [newRequest, created, ApprovalRequestStatus.consumed]
      · simp [newRequest, created, ApprovalRequestStatus.consumed]
      · simp [newRequest, created]

/-- All that the store and the policy ask of a new request. -/
structure Admissible (action : ActionEnvelope) (policy : ApprovalPolicy) (context : ApprovalContext) (uuid : String)
    (now : Int) (state : ApprovalInboxState) (id : Identifier) : Prop where
  risk : classify action = .ok .update
  allowed : denials policy action context (refresh now state).requests now none = []
  name : requestName uuid = .ok id
  fresh : ∀ request ∈ state.requests, request.id ≠ id
  unused : ∀ request ∈ state.requests, request.actionHash ≠ actionHash action
  count : state.requests.length < MAX_REQUESTS
  room : (refresh now state).audit.length < MAX_AUDIT
  inTime : escalation policy now ≤ timeOf action.expiresAt
  printable : Printable now ∧ Printable (expiry action policy now) ∧ Printable (escalation policy now)

theorem forall_refreshed (p : ApprovalRequest → Prop) (hp : ∀ request status, p { request with status } ↔ p request)
    (now : Int) (state : ApprovalInboxState) :
    (∀ request ∈ (refresh now state).requests, p request) ↔ ∀ request ∈ state.requests, p request := by
  rw [refresh_requests, List.forall_mem_map]
  refine forall₂_congr fun request _ => ?_
  obtain ⟨status, hLapsed, _⟩ := lapsed_eq now request
  rw [hLapsed, hp]

theorem refreshed_ids (id : Identifier) (now : Int) (state : ApprovalInboxState) :
    (∀ request ∈ (refresh now state).requests, request.id ≠ id) ↔ ∀ request ∈ state.requests, request.id ≠ id :=
  forall_refreshed (·.id ≠ id) (fun _ _ => Iff.rfl) now state

theorem refreshed_hashes (hash : Hash) (now : Int) (state : ApprovalInboxState) :
    (∀ request ∈ (refresh now state).requests, request.actionHash ≠ hash) ↔
      ∀ request ∈ state.requests, request.actionHash ≠ hash :=
  forall_refreshed (·.actionHash ≠ hash) (fun _ _ => Iff.rfl) now state

theorem isoString_of_printable {ms : Int} (h : Printable ms) : isoString ms = .ok (Date.toISOString ms) :=
  if_pos (Date.natAbs_le_of_isTimestamp h)

theorem isoString_ok {ms : Int} {s : String} (h : isoString ms = .ok s) : s = Date.toISOString ms := by
  rw [isoString] at h
  split at h
  · cases h
    rfl
  · cases h

theorem createOp_existing {existing : ApprovalRequest}
    (hFind : (refresh now state).requests.find? (stands action) = some existing) :
    createOp action policy context uuid now state = (.ok existing, refresh now state) := by
  rw [createOp, modify_bind, get_bind, hFind]
  rfl

theorem createOp_ok (hFind : (refresh now state).requests.find? (stands action) = none)
    (h : createOp action policy context uuid now state = (.ok result, after)) :
    ∃ id, classify action = .ok .update ∧ denials policy action context (refresh now state).requests now none = [] ∧
      requestName uuid = .ok id ∧ result = newRequest action policy context id now ∧
      after = withRequest result now state := by
  rw [createOp, modify_bind, get_bind, hFind] at h
  dsimp only at h
  obtain ⟨decision, _, hStep, h⟩ := bind_ok h
  obtain ⟨hEvaluate, rfl⟩ := lift_ok hStep
  obtain ⟨_, _, hStep, h⟩ := bind_ok h
  obtain ⟨hAllowed, rfl⟩ := throwIf_ok hStep
  obtain ⟨expiresAt, _, hStep, h⟩ := bind_ok h
  obtain ⟨hExpires, rfl⟩ := lift_ok hStep
  obtain ⟨id, _, hStep, h⟩ := bind_ok h
  obtain ⟨hName, rfl⟩ := lift_ok hStep
  obtain ⟨risk, _, hStep, h⟩ := bind_ok h
  obtain ⟨hRisk, rfl⟩ := lift_ok hStep
  obtain ⟨escalationAt, _, hStep, h⟩ := bind_ok h
  obtain ⟨hEscalates, rfl⟩ := lift_ok hStep
  rw [modify_bind, modify_bind] at h
  obtain ⟨rfl, rfl⟩ := pure_ok h
  obtain ⟨hUpdate, hDenials, rfl⟩ := evaluate_allowed.mp ⟨hEvaluate, by simpa using hAllowed⟩
  obtain rfl := classify_ok hRisk
  rw [isoString_ok hExpires, isoString_ok hEscalates]
  exact ⟨id, hUpdate, hDenials, hName, rfl, rfl⟩

theorem find_stands_of_unused (hUnused : ∀ request ∈ state.requests, request.actionHash ≠ actionHash action) :
    (refresh now state).requests.find? (stands action) = none := by
  have hRefreshed := (refreshed_hashes (actionHash action) now state).mpr hUnused
  rw [List.find?_eq_none]
  intro request hRequest
  have hOther : (request.actionHash == actionHash action) = false := beq_false_of_ne (hRefreshed request hRequest)
  simp [stands, hOther]

theorem createOp_of_admissible (h : Admissible action policy context uuid now state id) :
    createOp action policy context uuid now state =
      (.ok (newRequest action policy context id now), withRequest (newRequest action policy context id now) now state) := by
  obtain ⟨hEvaluate, hAllowed⟩ := evaluate_allowed.mpr ⟨h.risk, h.allowed, rfl⟩
  have hAllow : ¬(approval policy context).allowed = false := by simp [hAllowed]
  rw [createOp, modify_bind, get_bind, find_stands_of_unused h.unused]
  dsimp only
  rw [hEvaluate, lift_bind, bind_of_ok (throwIf_of_not hAllow _ _), isoString_of_printable h.printable.2.1, lift_bind,
    h.name, lift_bind, h.risk, lift_bind, isoString_of_printable h.printable.2.2, lift_bind]
  rfl

theorem withRequest_valid (hState : Valid state)
    (hEffects : EffectsAllowed action.operation action.expectedSideEffects)
    (hRisk : classify action = .ok .update) :
    Valid (withRequest (newRequest action policy context id now) now state) ↔
      (∀ request ∈ state.requests, request.id ≠ id) ∧
      (∀ request ∈ state.requests, request.actionHash ≠ actionHash action) ∧
      state.requests.length < MAX_REQUESTS ∧ (refresh now state).audit.length < MAX_AUDIT ∧
      escalation policy now ≤ timeOf action.expiresAt ∧
      Printable now ∧ Printable (expiry action policy now) ∧ Printable (escalation policy now) := by
  have hCount : (refresh now state).requests.length = state.requests.length := List.length_map _
  have hIds := refreshed_ids id now state
  have hHashes := refreshed_hashes (actionHash action) now state
  rw [withRequest, valid_appendAudit, pushRequest_valid, newRequest_valid hEffects hRisk, newRequest_timely, hCount,
    refresh_valid hState]
  constructor
  · rintro ⟨⟨_, hTimely, hLess, hFresh, hUnused⟩, hRoom, _⟩
    exact ⟨hIds.mp hFresh, hHashes.mp hUnused, hLess, hRoom, hTimely⟩
  · rintro ⟨hFresh, hUnused, hLess, hRoom, hTimely⟩
    exact ⟨⟨⟨Nat.le_of_lt hRoom, fun _ => hTimely.2.1⟩, hTimely, hLess, hIds.mpr hFresh, hHashes.mpr hUnused⟩, hRoom,
      hTimely.2.1⟩

theorem withRequest_valid_of_admissible (hState : Valid state)
    (hEffects : EffectsAllowed action.operation action.expectedSideEffects)
    (h : Admissible action policy context uuid now state id) :
    Valid (withRequest (newRequest action policy context id now) now state) :=
  (withRequest_valid hState hEffects h.risk).mpr
    ⟨h.fresh, h.unused, h.count, h.room, h.inTime, h.printable⟩

/-- A creation that is written: the request that stands for the action already, or a new one. -/
def Creates (action : ActionEnvelope) (policy : ApprovalPolicy) (context : ApprovalContext) (uuid : String) (now : Int)
    (state : ApprovalInboxState) (result : ApprovalRequest) (after : ApprovalInboxState) : Prop :=
  ((refresh now state).requests.find? (stands action) = some result ∧ after = refresh now state ∧
    (refresh now state).audit.length ≤ MAX_AUDIT ∧ (Lapses now state.requests → Printable now)) ∨
  ∃ id, Admissible action policy context uuid now state id ∧ result = newRequest action policy context id now ∧
    after = withRequest result now state

theorem createOp_written (hState : Valid state) (hEffects : EffectsAllowed action.operation action.expectedSideEffects) :
    createOp action policy context uuid now state = (.ok result, after) ∧ Valid after ↔
      Creates action policy context uuid now state result after := by
  constructor
  · rintro ⟨hRun, hValid⟩
    cases hFind : (refresh now state).requests.find? (stands action) with
    | some existing =>
      rw [createOp_existing hFind] at hRun
      cases hRun
      exact .inl ⟨hFind, rfl, (refresh_valid hState).mp hValid⟩
    | none =>
      obtain ⟨id, hRisk, hDenials, hName, rfl, rfl⟩ := createOp_ok hFind hRun
      obtain ⟨hFresh, hUnused, hCount, hRoom, hInTime, hPrintable⟩ := (withRequest_valid hState hEffects hRisk).mp hValid
      exact .inr ⟨id, ⟨hRisk, hDenials, hName, hFresh, hUnused, hCount, hRoom, hInTime, hPrintable⟩, rfl, rfl⟩
  · rintro (⟨hFind, rfl, hRefresh⟩ | ⟨id, hAdmissible, rfl, rfl⟩)
    · exact ⟨createOp_existing hFind, (refresh_valid hState).mpr hRefresh⟩
    · exact ⟨createOp_of_admissible hAdmissible, withRequest_valid_of_admissible hState hEffects hAdmissible⟩

end New

/-! ## The call -/

section Call

variable {input : RequestInput} {choice : RequestChoice} {store : Store} {prepared : Prepared}
  {state : ApprovalInboxState} {now : Int} {id : Identifier}

theorem prepare_ok (h : prepare input choice = .ok prepared) :
    EffectsAllowed prepared.action.operation prepared.action.expectedSideEffects := by
  obtain ⟨action, hAction, h⟩ := bind_eq_ok h
  obtain ⟨policy, _, h⟩ := bind_eq_ok h
  obtain ⟨context, _, h⟩ := bind_eq_ok h
  obtain ⟨first, _, h⟩ := bind_eq_ok h
  obtain ⟨_, _, h⟩ := bind_eq_ok h
  obtain ⟨_, _, h⟩ := bind_eq_ok h
  cases h
  exact validateActionEnvelope_ok hAction

theorem request_of_prepared (h : prepare input choice = .ok prepared) (store : Store) : request input choice store =
    mutate (createOp prepared.action prepared.policy prepared.context choice.uuid) choice.access store := by
  rw [request, h, lift_bind]

/-- A valid unexpired action whose world exists, with a valid policy and context that allow it, for an inbox below
its limits: the store answers, no request stands for the action and the new id is a fresh one. -/
structure Permitted (input : RequestInput) (choice : RequestChoice) (store : Store) (prepared : Prepared)
    (state : ApprovalInboxState) (now : Int) (id : Identifier) : Prop where
  action : validateActionEnvelope input.action = .ok prepared.action
  policy : validatePolicy input.policy = .ok prepared.policy
  context : validateContext input.context = .ok prepared.context
  unexpired : ∃ first, format.timestamp choice.clock = .ok first ∧ first < timeOf prepared.action.expiresAt
  world : choice.simulated = .ok ()
  lock : choice.access.lock = .ok ()
  write : choice.access.write = .ok ()
  clock : format.timestamp choice.access.clock = .ok now
  readable : read store = .ok state
  count : state.requests.length < MAX_REQUESTS
  room : (refresh now state).audit.length < MAX_AUDIT
  allowed : ∃ decision, evaluate prepared.policy prepared.action prepared.context (refresh now state).requests now none =
    .ok decision ∧ decision.allowed = true
  unrequested : ∀ request ∈ (refresh now state).requests,
    request.actionHash = actionHash prepared.action → request.status = .superseded
  name : requestName choice.uuid = .ok id
  fresh : ∀ request ∈ state.requests, request.id ≠ id

theorem Permitted.prepare_eq (h : Permitted input choice store prepared state now id) :
    prepare input choice = .ok prepared := by
  obtain ⟨first, hFirst, hLive⟩ := h.unexpired
  rw [prepare, h.action, ok_bind, h.policy, ok_bind, h.context, ok_bind, hFirst, ok_bind,
    failIf_of_not (Int.not_le.mpr hLive), ok_bind, h.world, ok_bind]
  rfl

theorem Permitted.find (h : Permitted input choice store prepared state now id) :
    (refresh now state).requests.find? (stands prepared.action) = none := by
  rw [List.find?_eq_none]
  intro request hRequest hStands
  rw [stands, Bool.and_eq_true, beq_iff_eq, decide_eq_true_eq] at hStands
  exact hStands.2 (h.unrequested request hRequest hStands.1)

/-- The call returns a new pending request for the action, which is stored. -/
def Requested (input : RequestInput) (choice : RequestChoice) (store : Store) (action : ActionEnvelope)
    (state : ApprovalInboxState) : Prop :=
  ∃ result after, request input choice store = (.ok result, some after) ∧ result.status = .pending ∧
    result.action = action ∧ result ∈ after.requests ∧ ∀ other ∈ state.requests, other.id ≠ result.id

theorem Permitted.requested_iff (h : Permitted input choice store prepared state now id) :
    Requested input choice store prepared.action state ↔
      Valid (withRequest (newRequest prepared.action prepared.policy prepared.context id now) now state) := by
  have hEffects := prepare_ok h.prepare_eq
  have hState := (read_ok h.readable).2
  obtain ⟨decision, hEvaluate⟩ := h.allowed
  obtain ⟨hRisk, hDenials, _⟩ := evaluate_allowed.mp hEvaluate
  constructor
  · rintro ⟨result, after, hCall, _⟩
    rw [request_of_prepared h.prepare_eq] at hCall
    obtain ⟨written, hRun, _⟩ := mutate_ok hCall
    obtain ⟨_, state', now', hRead, hClock, hCreate, hValid⟩ := run_eq_ok.mp hRun
    obtain rfl := Except.ok.inj (h.readable.symm.trans hRead)
    obtain rfl := Except.ok.inj (h.clock.symm.trans hClock)
    obtain ⟨id', _, _, hName, rfl, rfl⟩ := createOp_ok h.find hCreate
    obtain rfl := Except.ok.inj (h.name.symm.trans hName)
    exact hValid
  · intro hValid
    obtain ⟨_, hUnused, _, _, hInTime, hPrintable⟩ := (withRequest_valid hState hEffects hRisk).mp hValid
    have hAdmissible : Admissible prepared.action prepared.policy prepared.context choice.uuid now state id :=
      ⟨hRisk, hDenials, h.name, h.fresh, hUnused, h.count, h.room, hInTime, hPrintable⟩
    have hRun := run_eq_ok.mpr ⟨h.lock, state, now, h.readable, h.clock, createOp_of_admissible hAdmissible, hValid⟩
    refine ⟨newRequest prepared.action prepared.policy prepared.context id now,
      withRequest (newRequest prepared.action prepared.policy prepared.context id now) now state, ?_, rfl, rfl, ?_,
      h.fresh⟩
    · rw [request_of_prepared h.prepare_eq, mutate_of_run hRun, Access.leaves, h.write]
      rfl
    · exact List.mem_append_right _ (List.mem_singleton_self _)

/-- A permitted request is accepted exactly when the action lives to the escalation that its policy asks for, no
superseded request has been made for the same action and the times of the request print as timestamps. -/
theorem request_accepted_iff (h : Permitted input choice store prepared state now id) :
    Requested input choice store prepared.action state ↔
      escalation prepared.policy now ≤ timeOf prepared.action.expiresAt ∧
      (∀ request ∈ state.requests, request.actionHash ≠ actionHash prepared.action) ∧
      Printable now ∧ Printable (expiry prepared.action prepared.policy now) ∧
        Printable (escalation prepared.policy now) := by
  obtain ⟨decision, hEvaluate⟩ := h.allowed
  obtain ⟨hRisk, _⟩ := evaluate_allowed.mp hEvaluate
  rw [h.requested_iff, withRequest_valid (read_ok h.readable).2 (prepare_ok h.prepare_eq) hRisk]
  constructor
  · rintro ⟨_, hUnused, _, _, hInTime, hPrintable⟩
    exact ⟨hInTime, hUnused, hPrintable⟩
  · rintro ⟨hInTime, hUnused, hPrintable⟩
    exact ⟨h.fresh, hUnused, h.count, h.room, hInTime, hPrintable⟩

end Call

/-! ## A first request -/

theorem samples_areIdentifiers : (∀ effect ∈ Actions.subscriptionFailureEffects, isIdentifier effect = true) ∧
    isIdentifier "synthetic.subscription_failure" = true ∧ isIdentifier "p" = true ∧ isIdentifier environment = true ∧
    isIdentifier "approval-00000000000040008000000000000000" = true := by
  decide +kernel

def sampleEffects : List Identifier :=
  Actions.subscriptionFailureEffects.attach.map fun effect => ⟨effect.val, samples_areIdentifiers.1 _ effect.property⟩

def sampleAction : ActionEnvelope :=
  Actions.smallAction ⟨"synthetic.subscription_failure", samples_areIdentifiers.2.1⟩ sampleEffects

theorem sampleAction_accepted : validateActionEnvelope sampleAction.toValue = .ok sampleAction := by
  have hEffects : sampleEffects.map Subtype.val = Actions.subscriptionFailureEffects := rfl
  refine Actions.validateActionEnvelope_toValue_eq_ok.mpr ⟨rfl, ?_⟩
  constructor
  · exact (by decide : 4 ≤ 16)
  · exact hEffects ▸ (by decide : Actions.subscriptionFailureEffects.Nodup)
  · exact fun _ => hEffects

def second : BoundedMs := ⟨1000, by decide⟩

def day : BoundedMs := ⟨24 * 60 * 60 * 1000, by decide⟩

def samplePolicy (timeout : BoundedMs) : ApprovalPolicy where
  id := ⟨"p", samples_areIdentifiers.2.2.1⟩
  version := ⟨1, by decide⟩
  allowedEnvironments := [⟨environment, samples_areIdentifiers.2.2.2.1⟩]
  allowedActors := none
  allowedResources := none
  maxAmountMinor := none
  minimumConfidence := ⟨50, by decide⟩
  criticalRisks := []
  velocity := ⟨⟨5, by decide⟩, day⟩
  approvalTtlMs := day
  escalationTimeoutMs := timeout
  ordered := timeout.property.2

def integer (n : Nat) : JsValue := .number (.integer n)

def policyValue (timeout : BoundedMs) : JsValue :=
  .object [("schemaVersion", integer 1), ("kind", .string "ghostapi.approval-policy"), ("id", .string "p"),
    ("version", integer 1), ("allowedEnvironments", .array [.string "synthetic"]), ("minimumConfidence", integer 50),
    ("criticalRisks", .array []), ("velocity", .object [("maxActions", integer 5), ("windowMs", integer day.val)]),
    ("approvalTtlMs", integer day.val), ("escalationTimeoutMs", integer timeout.val)]

def sampleContext : ApprovalContext := ⟨⟨90, by decide⟩, none⟩

def contextValue : JsValue := .object [("confidence", integer 90)]

def sampleUuid : String := "00000000-0000-4000-8000-000000000000"

def sampleId : Identifier := ⟨"approval-00000000000040008000000000000000", samples_areIdentifiers.2.2.2.2⟩

theorem samples_accepted : validatePolicy (policyValue second) = .ok (samplePolicy second) ∧
    validatePolicy (policyValue day) = .ok (samplePolicy day) ∧ validateContext contextValue = .ok sampleContext ∧
    requestName sampleUuid = .ok sampleId := by
  decide +kernel

def sampleInput (timeout : BoundedMs) : RequestInput := ⟨sampleAction.toValue, policyValue timeout, contextValue⟩

def samplePrepared (timeout : BoundedMs) : Prepared := ⟨sampleAction, samplePolicy timeout, sampleContext⟩

def sampleChoice (now : Int) : RequestChoice := { clock := some now, access := { clock := some now }, uuid := sampleUuid }

theorem sample_permitted {timeout : BoundedMs} {now : Int}
    (hPolicy : validatePolicy (policyValue timeout) = .ok (samplePolicy timeout)) (hNow : 0 ≤ now ∧ now ≤ 1) :
    Permitted (sampleInput timeout) (sampleChoice now) none (samplePrepared timeout) emptyState now sampleId where
  action := sampleAction_accepted
  policy := hPolicy
  context := samples_accepted.2.2.1
  unexpired := by
    refine ⟨now, if_pos (by omega), ?_⟩
    change now < timeOf Actions.secondDay
    rw [Actions.secondDay_eq]
    omega
  world := rfl
  lock := rfl
  write := rfl
  clock := if_pos (by omega)
  readable := rfl
  count := (by decide : 0 < 1000)
  room := (by decide : 0 < 10000)
  allowed := ⟨_, evaluate_allowed.mpr ⟨if_pos rfl, rfl, rfl⟩⟩
  unrequested _ hRequest := absurd hRequest List.not_mem_nil
  name := samples_accepted.2.2.2
  fresh _ hRequest := absurd hRequest List.not_mem_nil

theorem sampleTimes_printable : ∀ ms ∈ [0, 1000, 86400000], Printable ms := by
  simp only [Printable]
  decide +kernel

theorem sample_times : escalation (samplePolicy second) 0 ≤ timeOf sampleAction.expiresAt ∧ Printable 0 ∧
    Printable (expiry sampleAction (samplePolicy second) 0) ∧ Printable (escalation (samplePolicy second) 0) := by
  have hDay : timeOf sampleAction.expiresAt = 86400000 := Actions.secondDay_eq
  have hExpiry : expiry sampleAction (samplePolicy second) 0 = 86400000 := by
    rw [expiry, hDay]
    rfl
  have hEscalation : escalation (samplePolicy second) 0 = 1000 := rfl
  rw [hExpiry, hEscalation, hDay]
  refine ⟨by decide, sampleTimes_printable 0 ?_, sampleTimes_printable 86400000 ?_, sampleTimes_printable 1000 ?_⟩
  all_goals simp

theorem first_requested : Requested (sampleInput second) (sampleChoice 0) none sampleAction emptyState :=
  (request_accepted_iff (sample_permitted samples_accepted.1 (by decide))).mpr
    ⟨sample_times.1, fun _ hRequest => absurd hRequest List.not_mem_nil, sample_times.2⟩

/-- A request whose policy escalates after a day is permitted a millisecond after the epoch, but the action expires
before that and the store refuses the record. -/
theorem late_escalation_refused :
    Permitted (sampleInput day) (sampleChoice 1) none (samplePrepared day) emptyState 1 sampleId ∧
      ¬Requested (sampleInput day) (sampleChoice 1) none sampleAction emptyState := by
  have hPermitted : Permitted (sampleInput day) (sampleChoice 1) none (samplePrepared day) emptyState 1 sampleId :=
    sample_permitted samples_accepted.2.1 (by decide)
  refine ⟨hPermitted, fun hRequested => ?_⟩
  have hValid := hPermitted.requested_iff.mp hRequested
  obtain ⟨_, _, _, _, hInTime, _⟩ :=
    (withRequest_valid emptyState_valid (prepare_ok hPermitted.prepare_eq) (if_pos rfl)).mp hValid
  change 86400001 ≤ timeOf Actions.secondDay at hInTime
  rw [Actions.secondDay_eq] at hInTime
  omega

end GhostApi.Approvals
