import GhostApi.Credentials.ExecuteOnce

/-!
# What a grant that is not revoked stands on

A credential that is rotated or revoked takes its grants with it, so that a
grant without a revocation time is one for a credential as it is now.
-/

namespace GhostApi.Credentials

open Js Validation Storage Effect Effect.Mutation Table Transition

def hasKey (tenantId credentialId : Identifier) (c : CredentialMetadata) : Bool :=
  c.tenantId == tenantId && c.id == credentialId

/-- The credential that the grant names is as it was when the grant was issued. -/
structure Covers (credentials : List CredentialMetadata) (grant : CredentialGrant) (credential : CredentialMetadata) :
    Prop where
  found : credentials.find? (hasKey grant.tenantId grant.credentialId) = some credential
  active : credential.revokedAt = none
  current : credential.version = grant.credentialVersion
  scopes : ∀ scope ∈ grant.scopes.val, scope ∈ credential.allowedScopes.val

def Covered (state : CredentialBrokerState) : Prop :=
  ∀ grant ∈ state.grants, grant.revokedAt = none → ∃ credential, Covers state.credentials grant credential

section Operations

variable {state state' : CredentialBrokerState} {tenantId credentialId tenantId' credentialId' : Identifier}
  {credential changed : CredentialMetadata} {now : Int}

theorem hasKey_iff : hasKey tenantId credentialId credential = true ↔
    credential.tenantId = tenantId ∧ credential.id = credentialId := by
  rw [hasKey, Bool.and_eq_true, beq_iff_eq, beq_iff_eq]

theorem findCredential_ok (h : findCredential state tenantId credentialId = .ok credential) :
    state.credentials.find? (hasKey tenantId credentialId) = some credential := by
  rw [findCredential] at h
  split at h
  · cases h
    assumption
  · cases h

/-- A changed credential is found under its own key, and the others as before. -/
theorem found_of_set (h : findCredential state tenantId credentialId = .ok credential)
    (hKey : changed.tenantId = credential.tenantId ∧ changed.id = credential.id) {found : CredentialMetadata}
    (hFound : state.credentials.find? (hasKey tenantId' credentialId') = some found) :
    (setCredential tenantId credentialId changed state.credentials).find? (hasKey tenantId' credentialId') =
      some (if tenantId' = tenantId ∧ credentialId' = credentialId then changed else found) := by
  obtain ⟨rfl, rfl⟩ := hasKey_iff.mp (List.find?_some (findCredential_ok h))
  split
  · rename_i hSame
    rw [hSame.1, hSame.2]
    exact find?_upsert_self (hasKey_iff.mpr hKey)
  · rename_i hOther
    refine (find?_upsert_other ?_ fun x hx => ?_).trans hFound
    · refine Bool.eq_false_iff.mpr fun hItem => hOther ?_
      obtain ⟨rfl, rfl⟩ := hasKey_iff.mp hItem
      exact hKey
    · refine Bool.eq_false_iff.mpr fun hItem => hOther ?_
      obtain ⟨rfl, rfl⟩ := hasKey_iff.mp hItem
      exact hasKey_iff.mp hx

theorem registerOp_covered (candidate : CredentialMetadata) (h : Covered state) :
    (registerOp candidate now).EndsIn Covered state := by
  refine endsIn_get (endsIn_throwIf h fun _ => endsIn_modify_bind (endsIn_pure ?_))
  intro grant hMem hActive
  obtain ⟨found, hCovers⟩ := h grant hMem hActive
  exact ⟨found, { hCovers with found := by rw [List.find?_append, hCovers.found]; rfl }⟩

/-- A change of a credential that revokes its grants. -/
theorem covered_of_revoked (h : Covered state) (hFind : findCredential state tenantId credentialId = .ok credential)
    (hCredentials : state'.credentials = setCredential tenantId credentialId changed state.credentials)
    (hGrants : state'.grants = revokeGrants tenantId credentialId now state.grants)
    (hKey : changed.tenantId = credential.tenantId ∧ changed.id = credential.id) : Covered state' := by
  intro grant hMem hActive
  rw [hGrants] at hMem
  obtain ⟨before, hBefore, hSame⟩ := List.mem_map.mp hMem
  split at hSame
  · subst hSame
    cases hActive
  · rename_i hOther
    subst hSame
    obtain ⟨found, hCovers⟩ := h before hBefore hActive
    have hFound := found_of_set hFind hKey hCovers.found
    rw [← hCredentials, if_neg fun hSame => hOther ⟨hSame.1, hSame.2, hActive⟩] at hFound
    exact ⟨found, { hCovers with found := hFound }⟩

theorem rotateOp_covered (vaultRef : Reference) (expiresAt : Timestamp) (h : Covered state) :
    (rotateOp tenantId credentialId vaultRef expiresAt now).EndsIn Covered state :=
  endsIn_get <| endsIn_lift h fun _ hFind => endsIn_throwIf h fun _ => endsIn_modify_bind <| endsIn_pure <|
    covered_of_revoked h hFind rfl rfl ⟨rfl, rfl⟩

theorem revokeOp_covered (h : Covered state) : (revokeOp tenantId credentialId now).EndsIn Covered state :=
  endsIn_get <| endsIn_lift h fun _ hFind => endsIn_modify <| covered_of_revoked h hFind rfl rfl ⟨rfl, rfl⟩

theorem issueOp_covered {workload : WorkloadIdentity} {request : CredentialAccessRequest} {expiresAt : Timestamp}
    {authorized : Except JsError JsValue} {uuid : String} (h : Covered state) :
    (issueOp workload request expiresAt authorized uuid now).EndsIn Covered state := by
  refine endsIn_get <| endsIn_lift h fun found hFind => endsIn_lift h fun _ hUsable => endsIn_lift h fun _ hMatches =>
    endsIn_lift h fun _ _ => endsIn_throwIf h fun _ => endsIn_throwIf h fun _ => endsIn_throwIf h fun _ =>
    endsIn_lift h fun _ _ => endsIn_modify_bind (endsIn_pure ?_)
  rw [assertCredentialUsable, bind_unit_eq_ok, failIf_eq_ok, not_not] at hUsable
  rw [assertRequestMatchesCredential, bind_unit_eq_ok, failIf_eq_ok, failIf_eq_ok, not_not] at hMatches
  intro grant hMem hActive
  rcases List.mem_append.mp hMem with hMem | hMem
  · exact h grant hMem hActive
  · cases List.mem_singleton.mp hMem
    obtain ⟨hTenant, hId⟩ := hasKey_iff.mp (List.find?_some (findCredential_ok hFind))
    refine ⟨found, ?_, hUsable.1, rfl, fun scope hScope => ?_⟩
    · rw [hTenant, hId]
      exact findCredential_ok hFind
    · exact List.contains_iff_mem.mp (List.all_eq_true.mp hMatches.2 scope hScope)

theorem startOp_covered {executor : CredentialExecutor} {workload : WorkloadIdentity} {grantId : Identifier}
    {request : CredentialAccessRequest} {verified : Except JsError Unit} {uuid : String} (h : Covered state) :
    (startOp executor workload grantId request verified uuid now).EndsIn Covered state := by
  refine endsIn_get <| endsIn_lift h fun (grant, credential) _ => ?_
  dsimp only
  split
  · split <;> exact h
  · exact endsIn_lift h fun _ _ => endsIn_lift h fun _ _ => endsIn_modify_bind (endsIn_pure h)

theorem complete_covered (receipt : CredentialUseReceipt) (completion : Completion) :
    (complete receipt now completion).Preserves Covered := by
  intro state h
  cases completion with
  | executed providerRequestId =>
    refine endsIn_lift h fun _ _ => endsIn_get <| endsIn_lift h fun used hFind =>
      endsIn_modify_bind (endsIn_pure ?_)
    intro grant hMem hActive
    obtain ⟨found, hCovers⟩ := h grant hMem hActive
    by_cases hKey : grant.tenantId = receipt.tenantId ∧ grant.credentialId = receipt.credentialId
    · have hUsed := hCovers.found
      rw [hKey.1, hKey.2, findCredential_ok hFind, Option.some.injEq] at hUsed
      subst hUsed
      refine ⟨_, (found_of_set hFind ?_ hCovers.found).trans (congrArg some (if_pos hKey)), hCovers.active,
        hCovers.current, hCovers.scopes⟩
      exact ⟨rfl, rfl⟩
    · refine ⟨found, { hCovers with found := ?_ }⟩
      refine (found_of_set hFind ?_ hCovers.found).trans (congrArg some (if_neg hKey))
      exact ⟨rfl, rfl⟩
  | failed => exact h
  | unknown => exact h

theorem completeOp_covered {receiptId : Identifier} {completion : Completion} (h : Covered state) :
    (completeOp receiptId completion now).EndsIn Covered state := by
  refine endsIn_get ?_
  split
  · exact h
  · refine endsIn_throwIf h fun _ => ?_
    refine Preserves.bind (complete_covered _ completion) (fun status => ?_) state h
    exact Preserves.bind (preserves_modify fun _ hState => hState) fun _ => preserves_pure _

end Operations

theorem locked_covered {α : Type} {operation : Int → Op α} {choice : Choice} {w w' : World} {reply : Except JsError α}
    (hOp : ∀ now, (operation now).EndsIn Covered (stored w.store))
    (h : Covered (stored w.store)) (hReply : locked operation choice w = (reply, w')) : Covered (stored w'.store) := by
  rcases locked_cases hReply with ⟨_, rfl⟩ | ⟨a, now, state, hRun, _, rfl, _⟩
  · exact h
  · have hEnds := hOp now
    rwa [EndsIn, hRun] at hEnds

theorem respond_covered {executor : CredentialExecutor} {part : Part} {choice : Choice} {w w' : World}
    {reply : Except JsError part.Answer} (h : Covered (stored w.store))
    (hReply : respond executor part choice w = (reply, w')) : Covered (stored w'.store) := by
  cases part with
  | register candidate => exact locked_covered (fun _ => registerOp_covered candidate h) h hReply
  | rotate _ _ vaultRef expiresAt => exact locked_covered (fun _ => rotateOp_covered vaultRef expiresAt h) h hReply
  | revoke _ _ => exact locked_covered (fun _ => revokeOp_covered h) h hReply
  | issue _ _ _ => exact locked_covered (fun _ => issueOp_covered h) h hReply
  | start _ _ _ => exact locked_covered (fun _ => startOp_covered h) h hReply
  | complete _ _ => exact locked_covered (fun _ => completeOp_covered h) h hReply
  | readSecret _ =>
    simp only [respond] at hReply
    split at hReply <;> cases hReply <;> exact h
  | _ => cases hReply; exact h

def KeepsCovered (w w' : World) : Prop := Covered (stored w.store) → Covered (stored w'.store)

/-- Whatever calls run at the same time: a grant that is not revoked is for the credential as it is now. -/
theorem revocation_complete (executor : CredentialExecutor) (store : Store) (hStore : Covered (stored store))
    {events : List (PoolEvent BrokerCall Choice)} {s : Pool World Part Part.Answer JsError}
    (run : (machine executor store).FreeRun events s) : Covered (stored s.world.store) := by
  have hKept : KeepsCovered { store } s.world := by
    refine @Pool.run_world _ _ _ _ _ _ _ _ KeepsCovered (fun _ => id) (fun _ _ _ h h' hw => h' (h hw)) ?_
      { store } _ _ _ run
    intro part choice w reply w' hReply hw
    exact respond_covered hw (Option.some.inj hReply)
  exact hKept hStore

theorem revocation_complete_revoked : ∃ s, (machine payExecutor (some grantedState)).FreeRun
      [.spawn (.revoke (.string "acme") (.string "acme")), .advance 0 {}] s ∧
    (stored s.world.store).grants.map CredentialGrant.revokedAt = [some epoch] ∧ Covered (stored s.world.store) := by
  have hSeen : ((machine payExecutor (some grantedState)).exec (machine payExecutor (some grantedState)).initial
      [.spawn (.revoke (.string "acme") (.string "acme")), .advance 0 {}]).map
        (fun s => (stored s.world.store).grants.map CredentialGrant.revokedAt) = some [some epoch] := by decide +kernel
  have hStore : Covered grantedState := by
    intro grant hMem _
    cases List.mem_singleton.mp hMem
    exact ⟨payCredential, rfl, rfl, rfl, fun _ h => h⟩
  obtain ⟨s, hExec, hSeen⟩ := Option.map_eq_some_iff.mp hSeen
  have run := Machine.freeRun_of_exec hExec
  exact ⟨s, run, hSeen, revocation_complete payExecutor (some grantedState) hStore run⟩

end GhostApi.Credentials
