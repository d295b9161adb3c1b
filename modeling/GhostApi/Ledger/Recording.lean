import GhostApi.Actions.Scripts
import GhostApi.Ledger.Runs

/-!
# Recording an action

What is known of an action fits into ledger entries: its names and hashes are
accepted as structured data. A ledger with room records it.
-/

namespace GhostApi.Ledger

open Js Security Validation Effect Effect.Mutation Actions Storage

/-! ## Structured data -/

def Storable (value : JsValue) : Prop := ∃ scalar : LedgerScalar, scalar.toValue = value

theorem storable_string {s : String} (h : acceptsString 512 s = true) : Storable (.string s) := ⟨.string ⟨s, h⟩, rfl⟩

theorem storable_of_text {s : String} (h : acceptsText 512 s = true) : Storable (.string s) := by
  obtain ⟨hNe, hLength, _, hSecret⟩ := acceptsText_iff.mp h
  refine storable_string ?_
  have hEmpty : s ≠ "" := by
    rintro rfl
    exact hNe rfl
  simp [acceptsString, hEmpty, hLength, hSecret]

theorem storable_identifier (id : Identifier) : Storable (.string id.val) :=
  storable_of_text (identifier_acceptsText id.property (by decide)).1

theorem storable_hash (hash : Hash) : Storable (.string hash.val) := by
  have hLength : hash.val.toList.length = 64 := by
    have hHash := hash.property
    rw [isHash, Bool.and_eq_true, beq_iff_eq] at hHash
    exact hHash.1
  refine storable_of_text (acceptsText_of_name ?_ hash.mem_nameChars (by rw [hLength]; decide)).1
  exact List.ne_nil_of_length_pos (by rw [hLength]; decide)

def ledgerWords : List String :=
  ["synthetic-world", "read", "write", "money_movement", "external_communication", "delete", "deploy", "none",
   "compensatable", "agent", "service", "caller_claimed", "approved", "not_used", "granted", "attempted", "committed",
   "verified", "ambiguous", "failed", "not_attempted", "not_supported"]

theorem ledgerWords_accepted : (ledgerWords.all (acceptsString 512)) = true := by decide +kernel

theorem storable_word {s : String} (h : s ∈ ledgerWords) : Storable (.string s) :=
  storable_string (List.all_eq_true.mp ledgerWords_accepted s h)

theorem normalizeFields_of {fields : List (String × JsValue)} (hNames : (fields.all fun field => acceptsName field.1) = true)
    (h : ∀ field ∈ fields, Storable field.2) :
    ∃ scalars, normalizeFields fields = .ok scalars ∧ scalars.map Prod.fst = fields.map Prod.fst := by
  induction fields with
  | nil => exact ⟨[], rfl, rfl⟩
  | cons field rest ih =>
    rw [List.all_cons, Bool.and_eq_true] at hNames
    rw [List.forall_mem_cons] at h
    obtain ⟨scalar, hScalar⟩ := h.1
    obtain ⟨scalars, hRest, hSame⟩ := ih hNames.2 h.2
    refine ⟨(field.1, scalar) :: scalars, ?_, by rw [List.map_cons, List.map_cons, hSame]⟩
    rw [normalizeFields, failIf_of_not (not_not.mpr hNames.1), ← hScalar, normalizeScalar_toValue, hRest]
    rfl

def acceptsNames (names : List String) : Bool :=
  decide names.Nodup && decide (names.length ≤ 16) && names.all acceptsName

theorem normalizeData_of {fields : List (String × JsValue)} (hNames : acceptsNames (fields.map Prod.fst) = true)
    (h : ∀ field ∈ fields, Storable field.2) : ∃ content, normalizeData (.object fields) = .ok content := by
  simp only [acceptsNames, Bool.and_eq_true, decide_eq_true_eq, List.length_map] at hNames
  obtain ⟨⟨hDistinct, hLength⟩, hAccepted⟩ := hNames
  obtain ⟨scalars, hScalars, hSame⟩ := normalizeFields_of (by simpa using hAccepted) h
  have hBounded : scalars.length ≤ 16 := by
    rw [← List.length_map Prod.fst, hSame, List.length_map]
    exact hLength
  have hNamed : ∀ field ∈ scalars, acceptsName field.1 = true := fun field hField =>
    List.all_eq_true.mp hAccepted field.1 (hSame ▸ List.mem_map_of_mem hField)
  exact ⟨⟨scalars, hSame ▸ hDistinct, hBounded, hNamed⟩, normalizeData_of_fields hScalars hLength⟩

/-! ## Evidence -/

/-- The names that the evidence of a record has, in the order of its fields. -/
def evidenceNames : List (List String) :=
  [["operation", "resourceType", "resourceIdHash", "argumentsHash", "expectedEffectsHash", "riskClass", "reversibility"],
   ["actorId", "workloadId", "actorType"], ["policyVersion", "policyHash", "allowed", "basis"],
   ["approvalHash", "approverId", "status", "basis"], ["status"], ["attempt", "status", "receiptHash"],
   ["status", "receiptHash", "proofHash"], ["outcome", "receiptHash", "providerReceiptHash"]]

theorem evidenceNames_accepted : (evidenceNames.all acceptsNames) = true := by decide +kernel

def Evidence.Accepted (evidence : Evidence) : Prop := ∃ content, evidence.data >>= normalizeData = .ok content

theorem Evidence.accepted_of {evidence : Evidence} {fields : List (String × JsValue)} (names : List String)
    (hData : evidence.data = .ok (.object fields)) (hSame : fields.map Prod.fst = names)
    (hNames : names ∈ evidenceNames) (h : ∀ field ∈ fields, Storable field.2) : evidence.Accepted := by
  rw [Evidence.Accepted, hData]
  exact normalizeData_of (hSame ▸ List.all_eq_true.mp evidenceNames_accepted names hNames) h

theorem storable_integer (z : Int) : Storable (.number (.integer z)) := ⟨.integer z, rfl⟩

theorem storable_bool (b : Bool) : Storable (.bool b) := ⟨.bool b, rfl⟩

theorem storable_null : Storable .null := ⟨.null, rfl⟩

theorem intentEvidence_accepted (envelope : ActionEnvelope) : (intentEvidence envelope).Accepted := by
  have hRisk : envelope.riskClass.text ∈ ledgerWords := by cases envelope.riskClass <;> decide
  have hReversibility : envelope.reversibility.text ∈ ledgerWords := by cases envelope.reversibility <;> decide
  refine Evidence.accepted_of ["operation", "resourceType", "resourceIdHash", "argumentsHash", "expectedEffectsHash",
    "riskClass", "reversibility"] rfl rfl (by decide) ?_
  simp only [List.forall_mem_cons]
  refine ⟨storable_identifier _, storable_word (by decide), storable_hash _, storable_hash _, storable_hash _,
    storable_word hRisk, storable_word hReversibility, fun _ h => (List.not_mem_nil h).elim⟩

theorem identityEvidence_accepted (envelope : ActionEnvelope) : (identityEvidence envelope).Accepted := by
  have hType : envelope.actor.type.text ∈ ledgerWords := by cases envelope.actor.type <;> decide
  refine Evidence.accepted_of ["actorId", "workloadId", "actorType"] rfl rfl (by decide) ?_
  simp only [List.forall_mem_cons]
  exact ⟨storable_identifier _, storable_identifier _, storable_word hType, fun _ h => (List.not_mem_nil h).elim⟩

theorem policyEvidence_accepted (envelope : ActionEnvelope) : (policyEvidence envelope).Accepted := by
  refine Evidence.accepted_of ["policyVersion", "policyHash", "allowed", "basis"] rfl rfl (by decide) ?_
  simp only [List.forall_mem_cons]
  exact ⟨storable_integer _, storable_hash _, storable_bool _, storable_word (by decide),
    fun _ h => (List.not_mem_nil h).elim⟩

theorem approvalEvidence_accepted (approval : ActionApproval) : (approvalEvidence approval).Accepted := by
  refine Evidence.accepted_of ["approvalHash", "approverId", "status", "basis"] rfl rfl (by decide) ?_
  simp only [List.forall_mem_cons]
  exact ⟨storable_hash _, storable_identifier _, storable_word (by decide), storable_word (by decide),
    fun _ h => (List.not_mem_nil h).elim⟩

theorem credentialEvidence_accepted : (credentialEvidence none).Accepted := by
  refine Evidence.accepted_of ["status"] rfl rfl (by decide) ?_
  exact List.forall_mem_singleton.mpr (storable_word (by decide))

theorem attemptEvidence_accepted {status : String} (h : status ∈ ledgerWords) (receipt : ActionExecutionReceipt) :
    (attemptEvidence status receipt).Accepted := by
  refine Evidence.accepted_of ["attempt", "status", "receiptHash"] rfl rfl (by decide) ?_
  simp only [List.forall_mem_cons]
  exact ⟨storable_integer _, storable_word h, storable_hash _, fun _ h => (List.not_mem_nil h).elim⟩

theorem verificationEvidence_accepted {status : String} (h : status ∈ ledgerWords) (receipt : ActionExecutionReceipt)
    {proofHash : JsValue} (hProof : Storable proofHash) : (verificationEvidence status receipt proofHash).Accepted := by
  refine Evidence.accepted_of ["status", "receiptHash", "proofHash"] rfl rfl (by decide) ?_
  simp only [List.forall_mem_cons]
  exact ⟨storable_word h, storable_hash _, hProof, fun _ h => (List.not_mem_nil h).elim⟩

theorem receiptEvidence_accepted (receipt : ActionExecutionReceipt) :
    ∀ evidence ∈ receiptEvidence receipt, evidence.Accepted := by
  rw [receiptEvidence]
  split
  · exact fun _ h => (List.not_mem_nil h).elim
  · exact List.forall_mem_singleton.mpr (attemptEvidence_accepted (by decide) receipt)
  · refine List.forall_mem_singleton.mpr (Evidence.accepted_of ["outcome", "receiptHash", "providerReceiptHash"] rfl rfl (by decide) ?_)
    simp only [List.forall_mem_cons]
    refine ⟨storable_word (by decide), storable_hash _, ?_, fun _ h => (List.not_mem_nil h).elim⟩
    cases receipt.providerRequestId with
    | none => exact storable_null
    | some id => exact storable_hash _
  · exact List.forall_mem_singleton.mpr (verificationEvidence_accepted (by decide) receipt (storable_hash _))
  · have hStatus : (if receipt.failure = some .unknownOutcome then "ambiguous" else "failed") ∈ ledgerWords := by
      split <;> decide
    refine List.forall_mem_cons.mpr ⟨attemptEvidence_accepted hStatus receipt, ?_⟩
    exact List.forall_mem_singleton.mpr (verificationEvidence_accepted hStatus receipt storable_null)

theorem compensationEvidence_accepted (envelope : ActionEnvelope) : (compensationEvidence envelope).Accepted := by
  refine Evidence.accepted_of ["status"] rfl rfl (by decide) (List.forall_mem_singleton.mpr ?_)
  refine storable_word ?_
  cases envelope.reversibility <;> decide

theorem evidence_accepted {record : ActionLedgerRecord} (hGrant : record.credentialGrant = none) :
    ∀ evidence ∈ record.evidence, evidence.Accepted := by
  intro evidence hEvidence
  rw [ActionLedgerRecord.evidence, hGrant, List.mem_append, List.mem_append] at hEvidence
  rcases hEvidence with (hHead | hReceipt) | hLast
  · revert evidence
    simp only [List.forall_mem_cons]
    exact ⟨intentEvidence_accepted _, identityEvidence_accepted _, policyEvidence_accepted _,
      approvalEvidence_accepted _, credentialEvidence_accepted, fun _ h => (List.not_mem_nil h).elim⟩
  · obtain ⟨receipt, _, hReceipt⟩ := List.mem_flatMap.mp hReceipt
    exact receiptEvidence_accepted receipt evidence hReceipt
  · exact List.mem_singleton.mp hLast ▸ compensationEvidence_accepted _

/-! ## Appending evidence -/

section Append

variable {tenantId actionId : Identifier} {actionDigest : Hash} {state : ActionLedgerState}

theorem appendEntry_stored {actionName : String} {stage : LedgerStage} {data : JsValue} {now : Int} {entry : LedgerEntry}
    {after : ActionLedgerState} (hRoom : state.entries.length < MAX_ENTRIES)
    (hRun : appendEntry tenantId actionName actionDigest stage data now state = (.ok entry, after)) :
    after.entries = state.entries ++ [entry] := by
  have hCreate : ∀ {start later : ActionLedgerState} {tenant : LedgerTenantState},
      getOrCreateTenant tenantId start = (.ok tenant, later) → later.entries = start.entries := by
    intro start later tenant hRun
    rcases getOrCreateTenant_cases hRun with ⟨_, rfl⟩ | ⟨_, _, _, rfl⟩
    · rfl
    · rfl
  obtain ⟨_, first, tenant, third, core, hFirst, _, hThird, _, _, _, _, _, _, rfl, rfl⟩ := appendEntry_cases hRun
  have hKept : roomy now first = first := if_neg (by rw [hCreate hFirst]; exact Nat.not_le.mpr hRoom)
  rw [hKept] at hThird
  rw [pushed, hCreate hThird, hCreate hFirst]

structure Entered (tenantId actionId : Identifier) (actionDigest : Hash) (evidence : Evidence) (entry : LedgerEntry) :
    Prop where
  tenant : entry.tenantId = tenantId
  action : entry.actionId = actionId
  digest : entry.actionHash = actionDigest
  stage : entry.stage = evidence.stage
  data : evidence.data >>= normalizeData = .ok entry.data

theorem appendAll_stored {evidence : List Evidence} {clock : Clock} {entries : List LedgerEntry}
    {after : ActionLedgerState} (h : Valid state) (hRoom : state.entries.length + evidence.length ≤ MAX_ENTRIES)
    (hRun : appendAll tenantId actionId actionDigest evidence clock state = (.ok entries, after)) :
    after.entries = state.entries ++ entries ∧ Valid after ∧
      List.Forall₂ (Entered tenantId actionId actionDigest) evidence entries := by
  induction evidence generalizing clock state entries with
  | nil =>
    obtain ⟨rfl, rfl⟩ := pure_ok hRun
    exact ⟨(List.append_nil _).symm, h, .nil⟩
  | cons item rest ih =>
    rw [List.length_cons] at hRoom
    obtain ⟨data, _, hLift, hRun⟩ := bind_ok hRun
    obtain ⟨hData, hSame⟩ := lift_ok hLift
    rw [← hSame] at hRun
    obtain ⟨now, _, hLift, hRun⟩ := bind_ok hRun
    obtain ⟨_, hSame⟩ := lift_ok hLift
    rw [← hSame] at hRun
    obtain ⟨entry, mid, hAppend, hRun⟩ := bind_ok hRun
    obtain ⟨others, last, hRest, hRun⟩ := bind_ok hRun
    cases hRun
    obtain ⟨_, _, _, hOwn, _, hName, hDigest, hStage, hNormal, hAdvances⟩ := appendEntry_ok h hAppend
    have hStored := appendEntry_stored (by omega) hAppend
    have hMidRoom : mid.entries.length + rest.length ≤ MAX_ENTRIES := by
      rw [hStored, List.length_append, List.length_singleton]
      omega
    obtain ⟨hAfter, hValid, hAll⟩ := ih hAdvances.valid hMidRoom hRest
    refine ⟨by rw [hAfter, hStored, List.append_assoc]; rfl, hValid, .cons ?_ hAll⟩
    exact ⟨hOwn, Subtype.ext hName, hDigest, hStage, by rw [hData]; exact hNormal⟩

theorem appendAll_of {evidence : List Evidence} {clock : Clock} {now : Int} (h : Valid state)
    (hTenant : tenantId ∈ state.tenants.map (·.tenantId) ∨ state.tenants.length < MAX_TENANTS)
    (hRoom : state.entries.length + evidence.length ≤ MAX_ENTRIES) (hClock : ∀ n, clock n = some now)
    (hReading : format.timestamp (some now) = .ok now) (hNow : Printable now)
    (hEvidence : ∀ item ∈ evidence, item.Accepted) :
    ∃ entries after, appendAll tenantId actionId actionDigest evidence clock state = (.ok entries, after) := by
  induction evidence generalizing clock state with
  | nil => exact ⟨[], state, rfl⟩
  | cons item rest ih =>
    rw [List.forall_mem_cons] at hEvidence
    rw [List.length_cons] at hRoom
    obtain ⟨content, hContent⟩ := hEvidence.1
    obtain ⟨data, hData, hContent⟩ := bind_eq_ok hContent
    have hOpen : state.entries.length < MAX_ENTRIES := by omega
    have hFits : (roomy now state).entries.length < MAX_ENTRIES := by
      rw [roomy, if_neg (Nat.not_le.mpr hOpen)]
      exact hOpen
    obtain ⟨entry, mid, hAppend⟩ := appendEntry_of actionId h hTenant hFits hNow hContent
    have hStored := appendEntry_stored hOpen hAppend
    obtain ⟨_, _, _, hOwn, _, _, _, _, _, hAdvances⟩ := appendEntry_ok h hAppend
    have hMember : tenantId ∈ mid.tenants.map (·.tenantId) := by
      have hEntry : entry ∈ mid.entries := hStored ▸ List.mem_append_right _ (List.mem_singleton_self _)
      exact hOwn ▸ hAdvances.valid.tracked entry hEntry
    obtain ⟨entries, after, hRest⟩ := @ih _ (fun n => clock (n + 1)) hAdvances.valid (.inl hMember)
      (by rw [hStored, List.length_append, List.length_singleton]; omega) (fun n => hClock (n + 1)) hEvidence.2
    refine ⟨entry :: entries, after, ?_⟩
    rw [appendAll, hData, lift_bind, hClock 0, hReading, lift_bind, bind_of_ok hAppend, bind_of_ok hRest]
    rfl

end Append

section Record

variable {options : Options} {access : JsValue} {tenantId : Identifier} {record : ActionLedgerRecord} {clock : Clock}
  {store : Store}

theorem perform_of {call : Call} {operation : Operation} {after : ActionLedgerState}
    (hCall : call.operation options = .ok operation) (hRead : format.read store = .ok (stateOf store))
    (hRun : operation.run clock (stateOf store) = (.ok (), after)) (hValid : Valid after) :
    perform options call clock store = .ok after := by
  rw [perform, hCall, ok_bind, format_accepts.update_of hRead hRun hValid.accepted]
  rfl

theorem recordAction_operation (hAccess : authorize options access .append = .ok tenantId)
    (hRecord : normalizeActionRecord record = .ok record) :
    Call.operation options (.recordAction access record) =
      .ok ⟨tenantId, fun clock => do let _ ← recordActionOp tenantId record clock⟩ := by
  rw [Call.operation, hAccess, ok_bind, hRecord]
  rfl

theorem record_of {now : Int} (hValid : Valid (stateOf store)) (hRead : format.read store = .ok (stateOf store))
    (hAccess : authorize options access .append = .ok tenantId) (hRecord : normalizeActionRecord record = .ok record)
    (hGrant : record.credentialGrant = none)
    (hNew : entriesForAction (stateOf store) tenantId record.envelope.actionId = [])
    (hTenant : tenantId ∈ (stateOf store).tenants.map (·.tenantId) ∨ (stateOf store).tenants.length < MAX_TENANTS)
    (hRoom : (stateOf store).entries.length + record.evidence.length ≤ MAX_ENTRIES) (hClock : ∀ n, clock n = some now)
    (hReading : format.timestamp (some now) = .ok now) (hNow : Printable now) :
    ∃ entries after, perform options (.recordAction access record) clock store = .ok after ∧
      after.entries = (stateOf store).entries ++ entries ∧
      List.Forall₂ (Entered tenantId record.envelope.actionId (actionHash record.envelope)) record.evidence entries := by
  obtain ⟨entries, after, hAppend⟩ := appendAll_of hValid hTenant hRoom hClock hReading hNow
    (evidence_accepted hGrant)
  obtain ⟨hStored, hAfter, hEntered⟩ := appendAll_stored hValid hRoom hAppend
  have hRun : recordActionOp tenantId record clock (stateOf store) = (.ok entries, after) := by
    rw [recordActionOp, get_bind, hNew]
    exact hAppend
  exact ⟨entries, after, perform_of (recordAction_operation hAccess hRecord) hRead (bind_of_ok hRun) hAfter, hStored,
    hEntered⟩

end Record

/-! ## A requested action -/

/-- What the gateway stores about a requested action of a name. -/
def requestedAction (actionId : Identifier) : StoredAction :=
  let envelope := { smallAction firstName [] with actionId }
  let record : StoredAction := ⟨envelope, actionHash envelope, smallApproval envelope approverName, []⟩
  record.push (receiptAt record firstName .requested firstDay none none none).seal

def recordOf (stored : StoredAction) : ActionLedgerRecord := ⟨stored.envelope, stored.approval, stored.receipts, none⟩

theorem requestedAction_valid (actionId : Identifier) : (requestedAction actionId).Valid := by
  refine ⟨rfl, rfl, (by decide : approverName ≠ actorName ∧ approverName ≠ workloadName), ?_, ?_, ⟨rfl, trivial⟩, rfl⟩
  · exact (by decide : 1 ≤ MAX_RECEIPTS)
  · intro receipt hReceipt
    obtain rfl := List.mem_singleton.mp hReceipt
    refine ⟨⟨rfl, rfl⟩, ?_, ?_, rfl⟩
    · simp [receiptAt, ReceiptBase.seal]
    · simp [receiptAt, ReceiptBase.seal]

theorem recordOf_accepted {stored : StoredAction} (h : stored.Valid) :
    normalizeActionRecord (recordOf stored) = .ok (recordOf stored) := by
  have hStored : validateStoredAction ⟨stored.envelope, actionHash stored.envelope, stored.approval, stored.receipts⟩ =
      .ok stored := by
    rw [← h.hash]
    exact validateStoredAction_eq_ok.mpr ⟨h, rfl⟩
  change (validateStoredAction ⟨stored.envelope, actionHash stored.envelope, stored.approval, stored.receipts⟩ >>= _) = _
  rw [hStored]
  rfl

end GhostApi.Ledger
