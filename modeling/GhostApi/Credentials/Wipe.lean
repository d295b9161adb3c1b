import GhostApi.Credentials.Broker

/-!
# The buffer of the secret

The finally block of the second try zeroes the buffer. A buffer that the vault
returned and that the first try then refuses keeps its content.
-/

namespace GhostApi.Credentials

open Js Validation Storage Effect Effect.Program

variable (executor : CredentialExecutor)

/-- A choice for an awaited call, and what the store holds by then: others may have changed it. -/
abbrev Turn := Choice × Store

/-- The answers to one call of the broker while others act on the store. -/
def exposed (part : Part) (turn : Turn) (w : World) : Except JsError part.Answer × World :=
  respond executor part turn.1 { w with store := turn.2 }

def Wiped (before after : World) : Prop := ∀ bytes ∈ after.secrets.drop before.secrets.length, ∀ b ∈ bytes, b = 0

def authenticated (turn turn' : Turn) : Except JsError WorkloadIdentity := do
  let workload ← turn.1.identity
  let now ← format.timestamp turn'.1.clock
  validateWorkloadIdentity workload now

/-- The verifiers, the lock and the store let assertExecutionActive pass. -/
def Active (grant : CredentialGrant) (turns : Nat → Turn) : Prop :=
  ∃ workload, authenticated (turns 0) (turns 1) = .ok workload ∧ (turns 2).1.verified = .ok () ∧
    (turns 3).1.lock = .ok () ∧
    checkActive executor grant workload (turns 3).1.clock (turns 3).1.clock' (turns 3).2 = .ok ()

/-- The use starts and the vault returns a buffer with the bytes. -/
def Obtains (input : ExecuteInput) (turns : Nat → Turn) (w : World) (grant : CredentialGrant) (bytes : List UInt8) : Prop :=
  ∃ workload grantId request credential receipt, authenticated (turns 0) (turns 1) = .ok workload ∧
    identifier input.grantId "Credential grant id" = .ok grantId ∧ validateAccessRequest input.request = .ok request ∧
    (exposed executor (.start workload grantId request) (turns 2) w).1 = .ok (.fresh grant credential receipt) ∧
    (turns 3).1.secret = .ok (some bytes)

/-! ## Parts that leave the buffers alone -/

variable {executor}

theorem locked_secrets {α : Type} (operation : Int → Op α) (choice : Choice) (w : World) :
    (locked operation choice w).2.secrets = w.secrets := by
  rw [locked]
  split
  · rfl
  · split
    · rfl
    · split <;> rfl

theorem locked_outcome {α : Type} (operation : Int → Op α) (choice : Choice) {w t : World} (h : w.store = t.store) :
    (locked operation choice w).1 = (locked operation choice t).1 := by
  rw [locked, locked, h]
  split
  · rfl
  · split <;> rfl

def SameSecrets (before after : World) : Prop := after.secrets = before.secrets

abbrev exposure (executor : CredentialExecutor) : Environment World Part Part.Answer JsError Turn :=
  .mk fun op choice s => some (exposed executor op choice s)

theorem ask_sameSecrets {part : Part} (h : ∀ turn w, (exposed executor part turn w).2.secrets = w.secrets)
    {before w : World} (hSame : SameSecrets before w) :
    (ask part).Ensures (exposure executor) (fun _ _ => True) (SameSecrets before) (fun _ _ => True) w := by
  refine ensures_perform hSame fun _ turn reply after hReply => ⟨?_, trivial⟩
  have hAfter : (exposed executor part turn w).2 = after := congrArg Prod.snd (Option.some.inj hReply)
  rw [SameSecrets, ← hAfter]
  exact (h turn w).trans hSame

theorem complete_sameSecrets {receiptId : Identifier} {completion : Completion} {before w : World}
    (hSame : SameSecrets before w) : (ask (.complete receiptId completion)).Ensures (exposure executor)
      (fun _ _ => True) (SameSecrets before) (fun _ _ => True) w := by
  have hKeeps : ∀ turn w, (exposed executor (.complete receiptId completion) turn w).2.secrets = w.secrets :=
    fun turn w => locked_secrets _ turn.1 { w with store := turn.2 }
  exact ask_sameSecrets hKeeps hSame

variable {turns : Nat → Turn} {w : World}

variable (executor turns w) in
theorem notStarted_secrets (receipt : CredentialUseReceipt) :
    ((notStarted receipt).runWith (exposed executor) turns w).2.1.secrets = w.secrets := by
  have hEnsures : (notStarted receipt).Ensures (exposure executor) (fun _ _ => True) (SameSecrets w)
      (fun _ _ => True) w :=
    (complete_sameSecrets rfl).andThen (fun _ h => h) (fun _ _ _ _ => trivial) fun _ _ hSame _ =>
      ensures_throw hSame trivial
  exact hEnsures.runWith.1

variable (executor turns w) in
theorem notStarted_run (receipt : CredentialUseReceipt) :
    ∃ e t rest, (notStarted receipt).runWith (exposed executor) turns w = (.error e, t, rest) ∧
      t.secrets = w.secrets := by
  have hSecrets := notStarted_secrets executor turns w receipt
  rw [notStarted] at hSecrets ⊢
  rcases hComplete : (ask (.complete receipt.id .failed)).runWith (exposed executor) turns w with ⟨e | done, t, rest⟩
  · rw [runWith_bind_of_error hComplete] at hSecrets ⊢
    exact ⟨e, t, rest, rfl, hSecrets⟩
  · rw [runWith_bind_of_ok hComplete] at hSecrets ⊢
    exact ⟨_, t, rest, rfl, hSecrets⟩

/-! ## The first try -/

variable (executor turns w) in
theorem authenticateWorkload_run (identity : JsValue) :
    ∃ t rest, (authenticateWorkload identity).runWith (exposed executor) turns w =
        (authenticated (turns 0) (turns 1), t, rest) ∧ t.secrets = w.secrets ∧
      ∀ workload, authenticated (turns 0) (turns 1) = .ok workload → rest = fun i => turns (i + 2) := by
  have hFirst : (ask (.authenticate identity)).runWith (exposed executor) turns w =
      ((turns 0).1.identity, { w with store := (turns 0).2 }, fun i => turns (i + 1)) := rfl
  rw [authenticateWorkload, authenticated]
  cases hIdentity : (turns 0).1.identity with
  | error e =>
    rw [hIdentity] at hFirst
    refine ⟨_, _, runWith_bind_of_error hFirst, rfl, ?_⟩
    rintro workload ⟨⟩
  | ok workload =>
    rw [hIdentity] at hFirst
    rw [runWith_bind_of_ok hFirst, ok_bind]
    have hSecond : (ask .timestamp).runWith (exposed executor) (fun i => turns (i + 1)) { w with store := (turns 0).2 } =
      (format.timestamp (turns 1).1.clock, { w with store := (turns 1).2 }, fun i => turns (i + 2)) := rfl
    cases hNow : format.timestamp (turns 1).1.clock with
    | error e =>
      rw [hNow] at hSecond
      refine ⟨_, _, runWith_bind_of_error hSecond, rfl, ?_⟩
      rintro workload ⟨⟩
    | ok now =>
      rw [hNow] at hSecond
      rw [runWith_bind_of_ok hSecond]
      exact ⟨_, _, rfl, rfl, fun _ _ => rfl⟩

variable (executor turns w) in
theorem assertExecutionActive_run (grant : CredentialGrant) (identity : JsValue) :
    ∃ result t rest, (assertExecutionActive grant identity).runWith (exposed executor) turns w = (result, t, rest) ∧
      t.secrets = w.secrets ∧ (result = .ok () ↔ Active executor grant turns) := by
  obtain ⟨t, rest, hAuthenticate, hSecrets, hRest⟩ :=
    authenticateWorkload_run executor turns w identity
  rw [assertExecutionActive]
  cases hWorkload : authenticated (turns 0) (turns 1) with
  | error e =>
    rw [hWorkload] at hAuthenticate
    refine ⟨_, _, _, runWith_bind_of_error hAuthenticate, hSecrets, by rintro ⟨⟩, ?_⟩
    rintro ⟨workload, hOk, _⟩
    cases hWorkload.symm.trans hOk
  | ok workload =>
    rw [hWorkload] at hAuthenticate
    cases hRest workload hWorkload
    rw [runWith_bind_of_ok hAuthenticate]
    have hVerify : (ask (.verify grant.action workload)).runWith (exposed executor) (fun i => turns (i + 2)) t =
      ((turns 2).1.verified, { t with store := (turns 2).2 }, fun i => turns (i + 3)) := rfl
    cases hVerified : (turns 2).1.verified with
    | error e =>
      rw [hVerified] at hVerify
      refine ⟨_, _, _, runWith_bind_of_error hVerify, hSecrets, by rintro ⟨⟩, ?_⟩
      rintro ⟨_, _, hOk, _⟩
      cases hVerified.symm.trans hOk
    | ok verified =>
      rw [hVerified] at hVerify
      rw [runWith_bind_of_ok hVerify]
      refine ⟨_, _, _, rfl, hSecrets, ?_⟩
      change ((turns 3).1.lock >>= fun _ =>
        checkActive executor grant workload (turns 3).1.clock (turns 3).1.clock' (turns 3).2) = .ok () ↔ _
      rw [bind_unit_eq_ok]
      constructor
      · rintro ⟨hLock, hCheck⟩
        exact ⟨workload, hWorkload, hVerified, hLock, hCheck⟩
      · rintro ⟨other, hOther, _, hLock, hCheck⟩
        cases hWorkload.symm.trans hOther
        exact ⟨hLock, hCheck⟩

variable (executor w) in
theorem obtainSecret_of_none (grant : CredentialGrant) (credential : CredentialMetadata) (identity : JsValue)
    (h : ∀ bytes, (turns 0).1.secret ≠ .ok (some bytes)) :
    ∃ e t rest, (obtainSecret grant credential identity).runWith (exposed executor) turns w = (.error e, t, rest) ∧
      t.secrets = w.secrets := by
  rw [obtainSecret]
  have hRead : (ask (.readSecret credential.vaultRef)).runWith (exposed executor) turns w =
    ((exposed executor (.readSecret credential.vaultRef) (turns 0) w).1,
      (exposed executor (.readSecret credential.vaultRef) (turns 0) w).2, fun i => turns (i + 1)) := rfl
  simp only [exposed, respond] at hRead
  cases hSecret : (turns 0).1.secret with
  | error e =>
    rw [hSecret] at hRead
    exact ⟨e, _, _, runWith_bind_of_error hRead, rfl⟩
  | ok reply =>
    cases reply with
    | none =>
      rw [hSecret] at hRead
      rw [runWith_bind_of_ok hRead]
      exact ⟨_, _, _, rfl, rfl⟩
    | some bytes => exact absurd hSecret (h bytes)

variable (executor w) in
theorem obtainSecret_of_some (grant : CredentialGrant) (credential : CredentialMetadata) (identity : JsValue)
    {bytes : List UInt8} (h : (turns 0).1.secret = .ok (some bytes)) :
    ∃ result t rest, (obtainSecret grant credential identity).runWith (exposed executor) turns w = (result, t, rest) ∧
      t.secrets = w.secrets ++ [bytes] ∧ (∀ secret, result = .ok secret → secret = w.secrets.length) ∧
      ((∃ secret, result = .ok secret) ↔
        bytes.length ≠ 0 ∧ bytes.length ≤ MAX_SECRET_BYTES ∧ Active executor grant fun i => turns (i + 1)) := by
  rw [obtainSecret]
  have hRead : (ask (.readSecret credential.vaultRef)).runWith (exposed executor) turns w =
    ((exposed executor (.readSecret credential.vaultRef) (turns 0) w).1,
      (exposed executor (.readSecret credential.vaultRef) (turns 0) w).2, fun i => turns (i + 1)) := rfl
  simp only [exposed, respond, h] at hRead
  rw [runWith_bind_of_ok hRead]
  by_cases hLength : bytes.length = 0 ∨ MAX_SECRET_BYTES < bytes.length
  · simp only [throwIf, if_pos hLength]
    refine ⟨_, _, _, rfl, rfl, by rintro _ ⟨⟩, ?_⟩
    constructor
    · rintro ⟨_, ⟨⟩⟩
    · rintro ⟨hSome, hBound, _⟩
      omega
  · simp only [throwIf, if_neg hLength]
    obtain ⟨result, t, rest, hRun, hSecrets, hActive⟩ := assertExecutionActive_run executor (fun i => turns (i + 1))
      { w with store := (turns 0).2, secrets := w.secrets ++ [bytes] } grant identity
    change ∃ result t rest, ((assertExecutionActive grant identity >>= fun _ => pure w.secrets.length :
      Call Nat).runWith (exposed executor) _ _) = (result, t, rest) ∧ _
    cases result with
    | error e =>
      refine ⟨_, _, _, runWith_bind_of_error hRun, hSecrets, by rintro _ ⟨⟩, ?_⟩
      constructor
      · rintro ⟨_, ⟨⟩⟩
      · rintro ⟨_, _, h⟩
        cases hActive.mpr h
    | ok _ =>
      rw [runWith_bind_of_ok hRun]
      refine ⟨_, _, _, rfl, hSecrets, by rintro _ ⟨⟩; rfl, ?_⟩
      have hUse := hActive.mp rfl
      constructor
      · rintro _
        exact ⟨by omega, by omega, hUse⟩
      · rintro _
        exact ⟨_, rfl⟩

/-! ## The second try -/

def HasSecrets (count : Nat) (w : World) : Prop := w.secrets.length = count

theorem ask_hasSecrets {part : Part} (h : ∀ turn w, (exposed executor part turn w).2.secrets.length = w.secrets.length)
    {count : Nat} (hCount : HasSecrets count w) :
    (ask part).Ensures (exposure executor) (fun _ _ => True) (HasSecrets count) (fun _ _ => True) w := by
  refine ensures_perform hCount fun _ turn reply after hReply => ⟨?_, trivial⟩
  have hAfter : (exposed executor part turn w).2 = after := congrArg Prod.snd (Option.some.inj hReply)
  rw [HasSecrets, ← hAfter]
  exact (h turn w).trans hCount

theorem complete_hasSecrets {receiptId : Identifier} {completion : Completion} {count : Nat}
    (hCount : HasSecrets count w) : (ask (.complete receiptId completion)).Ensures (exposure executor)
      (fun _ _ => True) (HasSecrets count) (fun _ _ => True) w := by
  have hKeeps : ∀ turn w, (exposed executor (.complete receiptId completion) turn w).2.secrets.length =
      w.secrets.length := fun turn w => congrArg List.length (locked_secrets _ turn.1 { w with store := turn.2 })
  exact ask_hasSecrets hKeeps hCount

theorem useSecret_hasSecrets {grant : CredentialGrant} {workload : WorkloadIdentity} {receipt : CredentialUseReceipt}
    {secret count : Nat} (hCount : HasSecrets count w) :
    (tryCatch (useSecret grant workload receipt secret) fun _ => outcomeUnknown receipt).Ensures (exposure executor)
      (fun _ _ => True) (HasSecrets count) (fun _ _ => True) w := by
  refine Ensures.tryCatch ?_
  have hExecute : ∀ turn w, (exposed executor (.execute grant workload secret) turn w).2.secrets.length =
      w.secrets.length := fun _ _ => rfl
  have hExecuted : ∀ turn w, (exposed executor (.executed secret) turn w).2.secrets.length = w.secrets.length :=
    fun _ _ => List.length_set
  have hUnknown : ∀ t, HasSecrets count t → (outcomeUnknown receipt).Ensures (exposure executor) (fun _ _ => True)
      (HasSecrets count) (fun _ _ => True) t := fun t hCount =>
    (complete_hasSecrets hCount).andThen (fun _ h => h) (fun _ _ _ _ => trivial) fun _ _ h _ => ensures_throw h trivial
  refine (ask_hasSecrets hExecute hCount).andThen (fun _ h => h) (fun _ t h _ => hUnknown t h) fun _ t h _ => ?_
  refine (ask_hasSecrets hExecuted h).andThen (fun _ h => h) (fun _ t h _ => hUnknown t h) fun _ t h _ => ?_
  refine (complete_hasSecrets h).mono (fun _ h => h) fun result t h _ => ?_
  cases result with
  | ok completed => trivial
  | error e => exact hUnknown t h

theorem secondTry_wiped {grant : CredentialGrant} {workload : WorkloadIdentity} {receipt : CredentialUseReceipt}
    {secret : Nat} {before : World} (hSecret : secret = before.secrets.length)
    (hCount : HasSecrets (before.secrets.length + 1) w) :
    Wiped before (((tryCatch (useSecret grant workload receipt secret) fun _ => outcomeUnknown receipt).finishWith
      (ask (.fill secret))).runWith (exposed executor) turns w).2.1 := by
  rcases hUse : (tryCatch (useSecret grant workload receipt secret) fun _ => outcomeUnknown receipt).runWith
    (exposed executor) turns w with ⟨result, t, rest⟩
  have hLength : t.secrets.length = before.secrets.length + 1 := by
    have hKept : HasSecrets (before.secrets.length + 1) ((tryCatch (useSecret grant workload receipt secret) fun _ =>
      outcomeUnknown receipt).runWith (exposed executor) turns w).2.1 := (useSecret_hasSecrets hCount).runWith.1
    rw [hUse] at hKept
    exact hKept
  rw [runWith_finishWith hUse]
  change ∀ bytes ∈ (t.secrets.modify secret fun bytes => bytes.map fun _ => 0).drop before.secrets.length,
    ∀ b ∈ bytes, b = 0
  intro bytes hBytes b hb
  obtain ⟨i, hBound, rfl⟩ := List.getElem_of_mem hBytes
  have hZero : i = 0 := by
    simp only [List.length_drop, List.length_modify, hLength] at hBound
    omega
  subst hZero hSecret
  simp only [List.getElem_drop, Nat.add_zero, List.getElem_modify, if_true, List.mem_map] at hb
  obtain ⟨_, _, rfl⟩ := hb
  rfl

/-! ## The whole call -/

theorem wiped_of_secrets {before after : World} (h : after.secrets = before.secrets) : Wiped before after := by
  intro bytes hBytes
  rw [h, List.drop_length] at hBytes
  cases hBytes

theorem wiped_append {before after : World} {bytes : List UInt8} (h : after.secrets = before.secrets ++ [bytes]) :
    Wiped before after ↔ ∀ b ∈ bytes, b = 0 := by
  rw [Wiped, h, List.drop_left]
  simp

theorem obtains_iff {input : ExecuteInput} {workload : WorkloadIdentity} {grantId : Identifier}
    {request : CredentialAccessRequest} (hWorkload : authenticated (turns 0) (turns 1) = .ok workload)
    (hId : identifier input.grantId "Credential grant id" = .ok grantId)
    (hRequest : validateAccessRequest input.request = .ok request) (grant : CredentialGrant) (bytes : List UInt8) :
    Obtains executor input turns w grant bytes ↔ ∃ credential receipt,
      (exposed executor (.start workload grantId request) (turns 2) w).1 = .ok (.fresh grant credential receipt) ∧
        (turns 3).1.secret = .ok (some bytes) := by
  constructor
  · rintro ⟨_, _, _, credential, receipt, hOk, hOk', hOk'', hFresh⟩
    cases hWorkload.symm.trans hOk
    cases hId.symm.trans hOk'
    cases hRequest.symm.trans hOk''
    exact ⟨credential, receipt, hFresh⟩
  · rintro ⟨credential, receipt, hFresh⟩
    exact ⟨workload, grantId, request, credential, receipt, hWorkload, hId, hRequest, hFresh⟩

theorem runFresh_wiped {grant : CredentialGrant} {credential : CredentialMetadata} {receipt : CredentialUseReceipt}
    {workload : WorkloadIdentity} {identity : JsValue} {before : World} (hBefore : w.secrets = before.secrets) :
    Wiped before ((runFresh grant credential receipt workload identity).runWith (exposed executor) turns w).2.1 ↔
      ∀ bytes, (turns 0).1.secret = .ok (some bytes) → (∀ b ∈ bytes, b = 0) ∨
        (bytes.length ≤ MAX_SECRET_BYTES ∧ Active executor grant fun i => turns (i + 1)) := by
  rw [runFresh]
  by_cases hSecret : ∃ bytes, (turns 0).1.secret = .ok (some bytes)
  · obtain ⟨bytes, hSecret⟩ := hSecret
    obtain ⟨result, t, rest, hObtain, hSecrets, hIndex, hPasses⟩ :=
      obtainSecret_of_some executor w grant credential identity hSecret
    have hForall : (∀ bytes', (turns 0).1.secret = .ok (some bytes') → (∀ b ∈ bytes', b = 0) ∨
        (bytes'.length ≤ MAX_SECRET_BYTES ∧ Active executor grant fun i => turns (i + 1))) ↔
        ((∀ b ∈ bytes, b = 0) ∨ (bytes.length ≤ MAX_SECRET_BYTES ∧ Active executor grant fun i => turns (i + 1))) := by
      rw [hSecret]
      simp
    rw [hForall]
    cases result with
    | ok secret =>
      rw [runWith_bind_of_ok (runWith_tryCatch_of_ok hObtain)]
      obtain ⟨_, hBound, hActive⟩ := hPasses.mp ⟨secret, rfl⟩
      have hIndexed : secret = before.secrets.length := by rw [hIndex secret rfl, hBefore]
      have hCount : HasSecrets (before.secrets.length + 1) t := by
        rw [HasSecrets, hSecrets, hBefore, List.length_append]
        rfl
      exact iff_of_true (secondTry_wiped hIndexed hCount) (.inr ⟨hBound, hActive⟩)
    | error e =>
      obtain ⟨e', t', rest', hThrows, hKept⟩ := notStarted_run executor rest t receipt
      have hCaught : (tryCatch (obtainSecret grant credential identity) fun _ => notStarted receipt).runWith
        (exposed executor) turns w = (.error e', t', rest') := (runWith_tryCatch_of_error hObtain).trans hThrows
      rw [runWith_bind_of_error hCaught, wiped_append (hKept.trans (hSecrets.trans (by rw [hBefore])))]
      constructor
      · exact .inl
      · rintro (hZero | ⟨hBound, hActive⟩)
        · exact hZero
        · intro b hb
          have hSome : bytes.length ≠ 0 := List.ne_nil_of_mem hb ∘ List.length_eq_zero_iff.mp
          obtain ⟨_, ⟨⟩⟩ := hPasses.mpr ⟨hSome, hBound, hActive⟩
  · have hNone : ∀ bytes, (turns 0).1.secret ≠ .ok (some bytes) := fun bytes h => hSecret ⟨bytes, h⟩
    obtain ⟨e, t, rest, hObtain, hSecrets⟩ := obtainSecret_of_none executor w grant credential identity hNone
    obtain ⟨e', t', rest', hThrows, hKept⟩ := notStarted_run executor rest t receipt
    have hCaught : (tryCatch (obtainSecret grant credential identity) fun _ => notStarted receipt).runWith
      (exposed executor) turns w = (.error e', t', rest') := (runWith_tryCatch_of_error hObtain).trans hThrows
    rw [runWith_bind_of_error hCaught]
    refine iff_of_true (wiped_of_secrets (hKept.trans (hSecrets.trans hBefore))) fun bytes h => ?_
    exact absurd h (hNone bytes)

/-- The buffer is zero in the end exactly when it was before, or it is no larger than allowed and the use was
still active when it arrived. -/
theorem secret_wiped_iff (executor : CredentialExecutor) (input : ExecuteInput) (turns : Nat → Turn) (w : World) :
    Wiped w ((executeServerSide input).runWith (exposed executor) turns w).2.1 ↔
      ∀ grant bytes, Obtains executor input turns w grant bytes → (∀ b ∈ bytes, b = 0) ∨
        (bytes.length ≤ MAX_SECRET_BYTES ∧ Active executor grant fun i => turns (i + 4)) := by
  obtain ⟨t, rest, hAuthenticate, hSecrets, hRest⟩ := authenticateWorkload_run executor turns w input.identity
  rw [executeServerSide]
  cases hWorkload : authenticated (turns 0) (turns 1) with
  | error e =>
    rw [hWorkload] at hAuthenticate
    rw [runWith_bind_of_error hAuthenticate]
    refine iff_of_true (wiped_of_secrets hSecrets) ?_
    rintro grant bytes ⟨_, _, _, _, _, hOk, _⟩
    cases hWorkload.symm.trans hOk
  | ok workload =>
  rw [hWorkload] at hAuthenticate
  cases hRest workload hWorkload
  rw [runWith_bind_of_ok hAuthenticate]
  cases hId : identifier input.grantId "Credential grant id" with
  | error e =>
    refine iff_of_true (wiped_of_secrets hSecrets) ?_
    rintro grant bytes ⟨_, _, _, _, _, _, hOk, _⟩
    cases hId.symm.trans hOk
  | ok grantId =>
  rw [runWith_bind_of_ok (runWith_lift _)]
  cases hRequest : validateAccessRequest input.request with
  | error e =>
    refine iff_of_true (wiped_of_secrets hSecrets) ?_
    rintro grant bytes ⟨_, _, _, _, _, _, _, hOk, _⟩
    cases hRequest.symm.trans hOk
  | ok request =>
  rw [runWith_bind_of_ok (runWith_lift _)]
  have hOutcome : (exposed executor (.start workload grantId request) (turns 2) t).1 =
      (exposed executor (.start workload grantId request) (turns 2) w).1 := locked_outcome _ _ rfl
  have hStart : (ask (.start workload grantId request)).runWith (exposed executor) (fun i => turns (i + 2)) t =
    ((exposed executor (.start workload grantId request) (turns 2) t).1,
      (exposed executor (.start workload grantId request) (turns 2) t).2, fun i => turns (i + 3)) := rfl
  have hKept : (exposed executor (.start workload grantId request) (turns 2) t).2.secrets = w.secrets :=
    (locked_secrets _ _ _).trans hSecrets
  simp only [obtains_iff hWorkload hId hRequest]
  rw [hOutcome] at hStart
  cases hStarted : (exposed executor (.start workload grantId request) (turns 2) w).1 with
  | error e =>
    rw [hStarted] at hStart
    rw [runWith_bind_of_error hStart]
    refine iff_of_true (wiped_of_secrets hKept) ?_
    rintro grant bytes ⟨_, _, ⟨⟩, _⟩
  | ok started =>
    rw [hStarted] at hStart
    rw [runWith_bind_of_ok hStart]
    cases started with
    | prior receipt =>
      refine iff_of_true (wiped_of_secrets hKept) ?_
      rintro grant bytes ⟨_, _, ⟨⟩, _⟩
    | fresh grant credential receipt =>
      rw [runFresh_wiped hKept]
      constructor
      · rintro h _ bytes ⟨_, _, ⟨⟩, hSecret⟩
        exact h bytes hSecret
      · intro h bytes hSecret
        exact h grant bytes ⟨credential, receipt, rfl, hSecret⟩

/-! ## A workload that is no longer verified -/

def acme : Identifier := ⟨"acme", by decide +kernel⟩

def vaultPath : Reference := ⟨"vault/acme", by decide +kernel⟩

def payScope : Scopes := ⟨[acme], by decide +kernel⟩

def zeroHash : Hash := ⟨String.ofList (List.replicate 64 '0'), by decide +kernel⟩

def payAction : CredentialActionReference := ⟨acme, zeroHash, zeroHash⟩

def epoch : String := "1970-01-01T00:00:00.000Z"

def tenMinutesLater : String := "1970-01-01T00:10:00.000Z"

def payCredential : CredentialMetadata where
  id := acme
  tenantId := acme
  projectId := acme
  environment := acme
  provider := acme
  ownerWorkloadId := acme
  ownerWorkloadKind := .ciJob
  vaultRef := vaultPath
  allowedScopes := payScope
  version := 1
  createdAt := epoch
  expiresAt := tenMinutesLater
  rotatedAt := none
  revokedAt := none
  lastUsedAt := none

def payGrant : CredentialGrant where
  id := acme
  credentialId := acme
  credentialVersion := 1
  tenantId := acme
  projectId := acme
  environment := acme
  workloadId := acme
  subjectId := acme
  workloadKind := .ciJob
  runId := acme
  provider := acme
  scopes := payScope
  action := payAction
  issuedAt := epoch
  expiresAt := tenMinutesLater
  breakGlass := none
  revokedAt := none

def grantedState : CredentialBrokerState := ⟨[payCredential], [payGrant], []⟩

def payExecutor : CredentialExecutor := ⟨"acme", fun _ => true⟩

def payIdentity : JsValue := .object [("schemaVersion", .number (.integer 1)),
  ("kind", .string "ghostapi.workload-identity"), ("tenantId", .string "acme"), ("projectId", .string "acme"),
  ("environment", .string "acme"), ("workloadId", .string "acme"), ("subjectId", .string "acme"),
  ("workloadKind", .string "ci_job"), ("runId", .string "acme"), ("issuedAt", .string epoch),
  ("expiresAt", .string tenMinutesLater)]

def payRequest : JsValue := .object [("credentialId", .string "acme"), ("provider", .string "acme"),
  ("scopes", .array [.string "acme"]), ("audience", .string "ghostapi-server"),
  ("action", .object [("actionId", .string "acme"), ("actionHash", .string zeroHash.val),
    ("actionReceiptHash", .string zeroHash.val)])]

def payInput : ExecuteInput := ⟨.undefined, .string "acme", payRequest⟩

def payReceipt : CredentialUseReceipt where
  id := ⟨"credential-use-0", by decide +kernel⟩
  grantId := acme
  credentialId := acme
  credentialVersion := 1
  tenantId := acme
  workloadId := acme
  action := payAction
  status := .executing
  executedAt := epoch

/-- Nobody else acts on the store. The verifier knows the identity once, and not after the vault has answered. -/
def refusedLater : Nat → Turn
  | 0 => ({ identity := .ok payIdentity }, some grantedState)
  | 1 | 2 => ({}, some grantedState)
  | 3 => ({ secret := .ok (some [1]) }, some { grantedState with receipts := [payReceipt] })
  | 4 => ({ identity := .error (fail "Workload identity is unknown.") },
    some { grantedState with receipts := [payReceipt] })
  | _ => ({}, some { grantedState with receipts := [payReceipt] })

/-- A verifier that refuses the identity the second time leaves the secret in the buffer. -/
theorem secret_left : ¬Wiped {} ((executeServerSide payInput).runWith (exposed payExecutor) refusedLater {}).2.1 := by
  have hLeft : ((executeServerSide payInput).runWith (exposed payExecutor) refusedLater {}).2.1.secrets = [[1]] := by
    decide +kernel
  intro hWiped
  rw [Wiped, hLeft] at hWiped
  exact absurd (hWiped [1] (by decide) 1 (by decide)) (by decide)

end GhostApi.Credentials
